import Radvd.Dump.Reading

/-!
# Reading printed statements one after the other

Statements read as they are printed if their search lists are harmless and no
comment without a newline goes on before a setting or an end (`reads_render`).
With search lists of any kind the reader meets at least as many opening braces
as were printed, unless it is lost in a string (`openings_render`); so statements
that read as they are printed have harmless search lists (`harmless_of_reads`).
-/

namespace Radvd.Dump

open Wire Tlv Transducer

/-! ## Statements that read as they are printed -/

/-- Nothing that is printed for the statement is lost in a comment. -/
def Statement.Shown (commented : Bool) : Statement → Prop
  | .opens .interface | .setting _ _ | .closes => commented = false
  | .opens _ | .invalidRouteLength _ | .invalidRdnssLength _ | .log _ => True

def Shown (commented : Bool) : List Statement → Prop
  | [] => True
  | statement :: rest =>
      statement.Shown commented ∧ Shown (statement.commented commented) rest

/-- Whether a comment goes on after some statements. -/
def commentedAfter (commented : Bool) (statements : List Statement) : Bool :=
  statements.foldl Statement.commented commented

theorem shown_append {commented : Bool} {first second : List Statement} :
    Shown commented (first ++ second) ↔
      Shown commented first ∧ Shown (commentedAfter commented first) second := by
  induction first generalizing commented with
  | nil => simp [Shown, commentedAfter]
  | cons statement rest ih => simp [Shown, commentedAfter, ih, and_assoc]

theorem commentedAfter_append (commented : Bool) (first second : List Statement) :
    commentedAfter commented (first ++ second) =
      commentedAfter (commentedAfter commented first) second :=
  List.foldl_append

def Statement.Readable (texts : Texts) : Statement → Prop
  | .opens definition =>
      Harmless (texts.arguments definition) ∧ newline ∉ texts.arguments definition
  | .setting _ value => value.Sound
  | .closes | .invalidRouteLength _ | .invalidRdnssLength _ | .log _ => True

/-- A comment with a number in it. -/
theorem reads_remark {before remark after : Bytes} (starts : before = hash :: remark)
    (sameLine : newline ∉ remark) (ends : newline ∉ after) (value : Nat) (commented : Bool) :
    Reads nextScan (boundary commented) (before ++ (decimal value ++ after)) [] (boundary true) := by
  rw [starts, List.cons_append]
  apply reads_invalid
  simp only [List.mem_append, not_or]
  exact ⟨sameLine, newline_notMem_of_plain (plain_decimal _), ends⟩

theorem reads_statement {texts : Texts} {statement : Statement} {commented : Bool}
    (readable : statement.Readable texts) (shown : statement.Shown commented)
    (within : Option Definition) :
    Reads nextScan (boundary commented) (texts.statement within statement) statement.pieces
      (boundary (statement.commented commented)) := by
  cases statement with
  | opens definition =>
      by_cases nested : definition = .interface
      · subst nested
        simp only [Statement.Shown] at shown
        rw [shown]
        exact reads_interface texts within
      · exact reads_opens nested readable.1 readable.2 within commented
  | setting keyword value =>
      simp only [Statement.Shown] at shown
      rw [shown]
      exact reads_setting texts readable keyword within
  | closes =>
      simp only [Statement.Shown] at shown
      rw [shown]
      exact reads_closes texts within
  | invalidRouteLength len =>
      have starts : ascii "# Invalid Route Information option length " =
          hash :: ascii " Invalid Route Information option length " := by
        simp [ascii, hash]
      exact reads_remark starts (by decide) (by decide) _ commented
  | invalidRdnssLength len =>
      have starts : ascii "# Invalid RDNSS length " = hash :: ascii " Invalid RDNSS length " := by
        simp [ascii, hash]
      exact reads_remark starts (by decide) (by decide) _ commented
  | log message => rfl

theorem reads_render {texts : Texts} {statements : List Statement} {commented : Bool}
    (readable : ∀ statement ∈ statements, statement.Readable texts)
    (shown : Shown commented statements) (within : Option Definition) :
    Reads nextScan (boundary commented) (texts.render within statements)
      (statements.flatMap Statement.pieces) (boundary (commentedAfter commented statements)) := by
  induction statements generalizing commented within with
  | nil => rfl
  | cons statement rest ih =>
      simp only [List.mem_cons, forall_eq_or_imp] at readable
      exact (reads_statement readable.1 shown.1 within).append (ih readable.2 shown.2 _)

/-! ## Statements with search lists of any kind -/

/-- Statements of blocks, in which double quotes occur in search lists only. -/
def Statement.Tame (texts : Texts) : Statement → Prop
  | .opens definition =>
      definition ≠ .interface ∧ Escaped (texts.arguments definition) ∧
        newline ∉ texts.arguments definition
  | .setting _ value => value.Bare
  | .closes | .invalidRouteLength _ | .invalidRdnssLength _ | .log _ => True

def Statement.Harmless (texts : Texts) : Statement → Prop
  | .opens definition => Dump.Harmless (texts.arguments definition)
  | .setting _ _ | .closes | .invalidRouteLength _ | .invalidRdnssLength _ | .log _ => True

theorem Statement.Tame.readable {texts : Texts} {statement : Statement}
    (tame : statement.Tame texts) (harmless : statement.Harmless texts) :
    statement.Readable texts := by
  cases statement with
  | opens definition => exact ⟨harmless, tame.2.2⟩
  | setting keyword value =>
      cases value with
      | text octets => exact absurd tame id
      | _ => trivial
  | _ => trivial

/-- Whether the format string or the keyword of a statement could end a string. -/
theorem escaped_ascii {text : String}
    (plain : (ascii text).all (fun octet => octet ≠ doubleQuote && octet ≠ backslash) = true) :
    Escaped (ascii text) :=
  Escaped.of_forall (by simpa using plain)

theorem escaped_statement {texts : Texts} {statement : Statement} (tame : statement.Tame texts)
    (within : Option Definition) : Escaped (texts.statement within statement) := by
  have named : ∀ definition : Definition, Escaped (ascii definition.keyword) := by
    intro definition
    exact (isKeyword_definition definition).escaped
  cases statement with
  | opens definition =>
      rw [statement_opens tame.1]
      exact (escaped_ascii (by decide)).append ((named definition).append
        (tame.2.1.append (escaped_ascii (by decide))))
  | setting keyword value =>
      have indent : Escaped (ascii (if within.isSome then "\t\t" else "\t")) := by
        split <;> exact escaped_ascii (by decide)
      have keywordText := (isKeyword_keyword keyword).escaped
      have ends : Escaped (ascii (if value = .infinity then "; # (0xffffffff)\n" else ";\n")) := by
        split <;> exact escaped_ascii (by decide)
      exact indent.append (keywordText.append ((escaped_ascii (by decide)).append
        ((escaped_of_plain (plain_of_bare tame)).append ends)))
  | closes =>
      cases within with
      | none => exact @escaped_ascii "\x7d; # End of interface definition\n" (by decide)
      | some definition =>
          exact (escaped_ascii (by decide)).append ((named definition).append
            (escaped_ascii (by decide)))
  | invalidRouteLength len =>
      exact (escaped_ascii (by decide)).append ((escaped_of_plain (plain_decimal _)).append
        (escaped_ascii (by decide)))
  | invalidRdnssLength len =>
      exact (escaped_ascii (by decide)).append ((escaped_of_plain (plain_decimal _)).append
        (escaped_ascii (by decide)))
  | log message => exact .nil

/-- Once in a string, the reader stays in it. -/
theorem reads_render_quoted {texts : Texts} {statements : List Statement}
    (tame : ∀ statement ∈ statements, statement.Tame texts) (head : Option Bytes)
    (within : Option Definition) :
    Reads nextScan ⟨.quoted, head⟩ (texts.render within statements) [] ⟨.quoted, head⟩ := by
  induction statements generalizing within with
  | nil => rfl
  | cons statement rest ih =>
      simp only [List.mem_cons, forall_eq_or_imp] at tame
      exact (reads_quoted (escaped_statement tame.1 within) head).append (ih tame.2 _)

/-- What a block writes when it is opened: the marks among its arguments, and its
brace, unless that is lost in a string. -/
theorem reads_opens_any {texts : Texts} {definition : Definition}
    (tame : (Statement.opens definition).Tame texts) (within : Option Definition)
    (commented : Bool) :
    ∃ marks last head,
      Reads nextScan ⟨.between, some (ascii definition.keyword)⟩ (texts.arguments definition)
          marks last ∧
        (last.mode ≠ .quoted ∧ Reads nextScan (boundary commented)
            (texts.statement within (.opens definition)) (marks ++ [⟨head, .opening⟩])
            (boundary false) ∨
          Reads nextScan (boundary commented) (texts.statement within (.opens definition)) marks
            ⟨.quoted, head⟩) := by
  obtain ⟨nested, escaped, -⟩ := tame
  have starts : Reads nextScan (boundary commented) (ascii "\n\t") [] ⟨.between, none⟩ := by
    cases commented <;> rfl
  have whole : ∀ {marks : List Piece} {last : Scan},
      Reads nextScan ⟨.between, some (ascii definition.keyword)⟩
        (texts.arguments definition ++ ascii "\n\t\x7b\n") marks last →
      Reads nextScan (boundary commented) (texts.statement within (.opens definition))
        marks last := by
    intro marks last rest
    rw [statement_opens nested]
    apply starts.append ((reads_head (isHead_definition definition)).append _)
    unfold Reads at rest ⊢
    exact (run_arguments texts definition _ (ascii "\t\x7b\n")).trans rest
  generalize scanned : run nextScan ⟨.between, some (ascii definition.keyword)⟩
    (texts.arguments definition) = result
  obtain ⟨marks, mode, head⟩ := result
  have outcome := quiet_or_quoted_of_escaped escaped (by simp [Mode.Quiet] : Mode.between.Quiet)
    (some (ascii definition.keyword))
  rw [scanned] at outcome
  refine ⟨marks, ⟨mode, head⟩, head, scanned, ?_⟩
  rcases outcome with quiet | lost
  · exact .inl ⟨quiet.1, whole (Reads.append scanned (reads_opening quiet head))⟩
  · right
    simp only at lost
    rw [lost] at scanned
    have stays := reads_quoted (escaped_ascii (by decide) : Escaped (ascii "\n\t\x7b\n")) head
    have read := whole (Reads.append scanned stays)
    rwa [List.append_nil] at read

def openings (pieces : List Piece) : Nat :=
  pieces.countP (·.mark = .opening)

theorem openings_append (first second : List Piece) :
    openings (first ++ second) = openings first + openings second :=
  List.countP_append

theorem openings_statement {texts : Texts} {statement : Statement} {commented : Bool}
    {within : Option Definition} {written : List Piece} {last : Scan}
    (tame : statement.Tame texts) (shown : statement.Shown commented)
    (read : Reads nextScan (boundary commented) (texts.statement within statement) written last) :
    last.mode = .quoted ∨
      last = boundary (statement.commented commented) ∧
        openings statement.pieces ≤ openings written := by
  by_cases harmless : statement.Harmless texts
  · obtain ⟨rfl, rfl⟩ := read.unique (reads_statement (tame.readable harmless) shown within)
    exact .inr ⟨rfl, le_rfl⟩
  · cases statement with
    | opens definition =>
        obtain ⟨marks, middle, head, -, opened⟩ := reads_opens_any tame within commented
        rcases opened with ⟨-, opened⟩ | lost
        · obtain ⟨rfl, rfl⟩ := read.unique opened
          refine .inr ⟨rfl, ?_⟩
          have brace : ∀ head, openings [⟨head, .opening⟩] = 1 := fun head => rfl
          simp only [pieces_opens tame.1, openings_append, brace]
          omega
        · obtain ⟨-, rfl⟩ := read.unique lost
          exact .inl rfl
    | _ => exact absurd trivial harmless

theorem openings_render {texts : Texts} {statements : List Statement} {commented : Bool}
    {within : Option Definition} {written : List Piece} {last : Scan}
    (tame : ∀ statement ∈ statements, statement.Tame texts) (shown : Shown commented statements)
    (read : Reads nextScan (boundary commented) (texts.render within statements) written last)
    (ended : last.mode ≠ .quoted) :
    last = boundary (commentedAfter commented statements) ∧
      openings (statements.flatMap Statement.pieces) ≤ openings written := by
  induction statements generalizing commented within written with
  | nil =>
      obtain ⟨-, rfl⟩ := read.unique rfl
      exact ⟨rfl, Nat.zero_le _⟩
  | cons statement rest ih =>
      simp only [List.mem_cons, forall_eq_or_imp] at tame
      obtain ⟨first, middle, later, readFirst, readLater, rfl⟩ := read.split
      rcases openings_statement tame.1 shown.1 readFirst with lost | ⟨rfl, atLeast⟩
      · obtain ⟨mode, head⟩ := middle
        simp only at lost
        subst lost
        obtain ⟨-, rfl⟩ := readLater.unique (reads_render_quoted tame.2 head _)
        exact absurd rfl ended
      · have others := ih tame.2 shown.2 readLater
        refine ⟨others.1, ?_⟩
        simp only [List.flatMap_cons, openings_append]
        omega

/-- Statements that read as they are printed, maybe with something that opens no
block after them, have harmless search lists. -/
theorem harmless_of_reads {texts : Texts} {statements : List Statement} {commented : Bool}
    {within : Option Definition} {after : List Piece} {last : Scan}
    (tame : ∀ statement ∈ statements, statement.Tame texts) (shown : Shown commented statements)
    (read : Reads nextScan (boundary commented) (texts.render within statements)
      (statements.flatMap Statement.pieces ++ after) last)
    (ended : last.mode ≠ .quoted) (opensNone : openings after = 0) :
    ∀ statement ∈ statements, statement.Harmless texts := by
  induction statements generalizing commented within with
  | nil => simp
  | cons statement rest ih =>
      simp only [List.mem_cons, forall_eq_or_imp] at tame ⊢
      obtain ⟨first, middle, later, readFirst, readLater, whole⟩ := read.split
      simp only [List.flatMap_cons, List.append_assoc] at whole
      rcases openings_statement tame.1 shown.1 readFirst with lost | ⟨rfl, -⟩
      · obtain ⟨mode, head⟩ := middle
        simp only at lost
        subst lost
        obtain ⟨-, rfl⟩ := readLater.unique (reads_render_quoted tame.2 head _)
        exact absurd rfl ended
      have others := (openings_render tame.2 shown.2 readLater ended).2
      have harmless : statement.Harmless texts := by
        by_contra harmful
        cases statement with
        | opens definition =>
            obtain ⟨marks, state, head, scanned, opened⟩ := reads_opens_any tame.1 within commented
            rcases opened with ⟨notQuoted, opened⟩ | lost
            · obtain ⟨rfl, -⟩ := readFirst.unique opened
              have written := written_or_quoted_of_harmful tame.1.2.1 false
                (ascii definition.keyword) harmful
              unfold Reads at scanned
              simp only [lineMode, Bool.false_eq_true, if_false, scanned, notQuoted,
                or_false] at written
              obtain ⟨mark, marksRest, rfl⟩ := List.exists_cons_of_ne_nil written
              have counted := congrArg openings whole
              simp only [pieces_opens tame.1.1, List.cons_append, List.nil_append,
                List.cons.injEq] at whole counted
              rw [← whole.1] at counted
              simp only [openings, List.countP_cons, List.countP_append, List.countP_nil]
                at counted opensNone others
              simp only [decide_true, if_true] at counted
              omega
            · have ends := (readFirst.unique lost).2
              exact absurd (congrArg Scan.mode ends) (by simp [boundary, Statement.commented])
        | _ => exact harmful trivial
      refine ⟨harmless, ?_⟩
      obtain ⟨rfl, -⟩ := readFirst.unique
        (reads_statement (tame.1.readable harmless) shown.1 within)
      rw [List.append_cancel_left_eq] at whole
      rw [← whole] at readLater
      exact ih tame.2 shown.2 readLater

end Radvd.Dump
