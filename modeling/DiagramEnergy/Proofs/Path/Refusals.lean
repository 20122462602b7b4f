import DiagramEnergy.Proofs.Path.Grammar

/-!
# Where a path text is refused

A text that is no path is refused behind its longest beginning that some path
text starts with.  What the refusal names is what this beginning lacks, and the
column counts the characters of its last line.

Readers are looked at as continuations of what has been read before them: each
of them refuses a text for what everything up to there lacks, and has settled
this as soon as it has seen one character that does not fit.
-/

namespace DiagramEnergy.Path

variable {α : Type}

/-! ## Beginnings of path texts -/

/-- A text that some accepted text starts with. -/
def Viable (start : List Char) : Prop :=
  ∃ rest path, parse (String.ofList (start ++ rest)) = .ok path

theorem viable_iff (start : List Char) :
    Viable start ↔ ∃ rest path, Written (start ++ rest) path := by
  simp only [Viable, parse_eq_ok_iff, String.toList_ofList]

/-- What the beginning of a path text lacks; a complete path lacks nothing but
its end. -/
inductive Lacks : List Char → Expected → Prop where
  | objectName {blanks : List Char} :
      IsBlankRun blanks → Lacks blanks .objectName
  | dot {object : String} {objectText : List Char} :
      Padded object objectText → Lacks objectText .dot
  | fieldName {object : String} {objectText blanks : List Char} :
      Padded object objectText → IsBlankRun blanks →
      Lacks (objectText ++ '.' :: blanks) .fieldName
  | propertyName {object slot : String}
      {objectText slotText blanks : List Char} :
      Padded object objectText → Padded slot slotText → IsBlankRun blanks →
      Lacks (objectText ++ '.' :: (slotText ++ '.' :: blanks)) .propertyName
  | endOfText {text : List Char} {path : Path} :
      Written text path → Lacks text .endOfText

theorem padded_blanks_append {blanks padded : List Char} {name : String}
    (run : IsBlankRun blanks) (isPadded : Padded name padded) :
    Padded name (blanks ++ padded) := by
  obtain ⟨before, after, runBefore, identifier, runAfter, rfl⟩ := isPadded
  refine ⟨blanks ++ before, after, ?_, identifier, runAfter, by simp⟩
  intro char member
  rcases List.mem_append.1 member with first | second
  · exact run char first
  · exact runBefore char second

theorem isIdentifier_a : IsIdentifier "a" :=
  ⟨'a', [], rfl, (startsName_iff 'a').1 rfl, by simp⟩

theorem Lacks.viable {start : List Char} {missing : Expected}
    (lacks : Lacks start missing) : Viable start := by
  rw [viable_iff]
  have short : Padded "a" ['a'] := padded_of_identifier isIdentifier_a
  cases lacks with
  | objectName run =>
      refine ⟨['a', '.', 'a'], .field "a" "a", ?_⟩
      simpa using Written.field (padded_blanks_append run short) short
  | dot object => exact ⟨['.', 'a'], _, .field object short⟩
  | @fieldName name _ _ object run =>
      refine ⟨['a'], .field name "a", ?_⟩
      simpa using Written.field object (padded_blanks_append run short)
  | @propertyName name other _ _ _ object slot run =>
      refine ⟨['a'], .property name other "a", ?_⟩
      simpa using Written.property object slot (padded_blanks_append run short)
  | endOfText written => exact ⟨[], _, by simpa using written⟩

/-! ## Characters that settle a reading -/

/-- A run that ends at or before a character does not depend on what stands
behind it. -/
theorem run_settled {inRun : Char → Bool} {start behind rest : List Char}
    {char : Char}
    (ended : (start ++ char :: rest).dropWhile inRun = behind ++ char :: rest)
    (other : List Char) :
    (start ++ char :: other).takeWhile inRun =
        (start ++ char :: rest).takeWhile inRun ∧
      (start ++ char :: other).dropWhile inRun = behind ++ char :: other := by
  induction start with
  | nil =>
      cases inside : inRun char with
      | true =>
          have longer := congrArg List.length ended
          have shorter := (List.dropWhile_suffix inRun (l := rest)).length_le
          simp only [List.nil_append, List.dropWhile_cons, inside, if_true,
            List.length_append, List.length_cons] at longer
          omega
      | false =>
          simp only [List.nil_append, List.dropWhile_cons, inside,
            Bool.false_eq_true, if_false] at ended
          have none : behind = [] := by simpa using ended.symm
          simp [inside, none]
  | cons head start induction =>
      cases inside : inRun head with
      | true =>
          simp only [List.cons_append, List.dropWhile_cons, inside,
            if_true] at ended
          simpa [inside] using induction ended
      | false =>
          simp only [List.cons_append, List.dropWhile_cons, inside,
            Bool.false_eq_true, if_false] at ended
          obtain rfl : head :: start = behind :=
            List.append_cancel_right ended
          simp [inside]

theorem skipBlanks_settled {start rest : List Char} {char : Char}
    (behind : List Char)
    (skipped : skipBlanks (start ++ char :: rest) = behind ++ char :: rest)
    (other : List Char) :
    skipBlanks (start ++ char :: other) = behind ++ char :: other :=
  (run_settled skipped other).2

theorem readName_settled {expected : Expected} {start behind rest : List Char}
    {char : Char} {name : String}
    (read : readName expected (start ++ char :: rest) =
      .ok (name, behind ++ char :: rest)) (other : List Char) :
    readName expected (start ++ char :: other) =
      .ok (name, behind ++ char :: other) := by
  cases skipped : skipBlanks (start ++ char :: rest) with
  | nil => simp [readName, skipped] at read
  | cons first tail =>
      by_cases starts : startsName first = true
      · simp only [readName, skipped, starts, if_true, Except.ok.injEq,
          Prod.mk.injEq] at read
        obtain ⟨rfl, resumed⟩ := read
        obtain ⟨blanks, -, spaced⟩ :=
          exists_skipBlanks (tail.dropWhile continuesName)
        rw [resumed, ← List.append_assoc] at spaced
        obtain ⟨read, split⟩ : ∃ read, tail = read ++ char :: rest :=
          ⟨tail.takeWhile continuesName ++ (blanks ++ behind), by
            rw [List.append_assoc, ← spaced, List.takeWhile_append_dropWhile]⟩
        subst split
        have opened := skipBlanks_settled (first :: read) skipped other
        have named := run_settled spaced other
        rw [spaced] at resumed
        have closed := skipBlanks_settled behind resumed other
        simp only [readName, opened, List.cons_append, starts, if_true, named,
          closed]
      · simp [readName, skipped, starts] at read

theorem readName_refuses {expected : Expected} {text : List Char}
    {refusal : Refusal} (read : readName expected text = .error refusal) :
    refusal.expected = expected ∧
      ∃ blanks, IsBlankRun blanks ∧ text = blanks ++ refusal.rest := by
  obtain ⟨blanks, run, split⟩ := exists_skipBlanks text
  cases skipped : skipBlanks text with
  | nil =>
      simp only [readName, skipped, Except.error.injEq] at read
      subst read
      exact ⟨rfl, blanks, run, by rw [skipped] at split; exact split⟩
  | cons first tail =>
      by_cases starts : startsName first = true
      · simp [readName, skipped, starts] at read
      · simp only [readName, skipped, starts, Except.error.injEq,
          Bool.false_eq_true, if_false] at read
        subst read
        exact ⟨rfl, blanks, run, by rw [skipped] at split; exact split⟩

theorem readName_refusal_settled {expected missing : Expected}
    {start rest : List Char} {char : Char}
    (read : readName expected (start ++ char :: rest) =
      .error ⟨missing, char :: rest⟩) (other : List Char) :
    readName expected (start ++ char :: other) =
      .error ⟨missing, char :: other⟩ := by
  cases skipped : skipBlanks (start ++ char :: rest) with
  | nil => simp [readName, skipped] at read
  | cons first tail =>
      by_cases starts : startsName first = true
      · simp [readName, skipped, starts] at read
      · simp only [readName, skipped, starts, Except.error.injEq,
          Bool.false_eq_true, if_false, Refusal.mk.injEq,
          List.cons.injEq] at read
        obtain ⟨rfl, rfl, rfl⟩ := read
        have opened := skipBlanks_settled [] skipped other
        simp [readName, opened, starts]

/-! ## Readers as continuations -/

/-- Reads a name and goes on with it. -/
def nameThen (expected : Expected)
    (next : String → List Char → Except Refusal α) (text : List Char) :
    Except Refusal α := do
  let (name, rest) ← readName expected text
  next name rest

/-- Goes on behind a dot, or at a text that does not start with one. -/
def dotThen (behind otherwise : List Char → Except Refusal α) :
    List Char → Except Refusal α
  | '.' :: rest => behind rest
  | rest => otherwise rest

theorem dotThen_dot (behind otherwise : List Char → Except Refusal α)
    (rest : List Char) :
    dotThen behind otherwise ('.' :: rest) = behind rest := rfl

theorem dotThen_undotted {behind otherwise : List Char → Except Refusal α}
    {text : List Char} (undotted : ∀ rest, text = '.' :: rest → False) :
    dotThen behind otherwise text = otherwise text := by
  unfold dotThen
  split
  case h_1 rest => exact (undotted rest rfl).elim
  case h_2 => rfl

theorem undotted_of_ne {char : Char} (different : char ≠ '.')
    (tail rest : List Char) : char :: tail = '.' :: rest → False :=
  fun same => different (List.cons.inj same).1

def endWith (result : α) (text : List Char) : Except Refusal α := do
  readEnd text
  return result

theorem ofChars_eq (text : List Char) :
    ofChars text =
      nameThen .objectName (fun object =>
        dotThen
          (nameThen .fieldName fun slot =>
            dotThen
              (nameThen .propertyName fun name =>
                endWith (.property object slot name))
              (endWith (.field object slot)))
          (fun rest => .error ⟨.dot, rest⟩)) text := by
  unfold ofChars nameThen
  congr 1
  funext ⟨object, rest⟩
  simp only [readDot]
  split
  case h_1 behind =>
    simp only [bind, Except.bind, readName_skipBlanks, dotThen_dot]
    cases readName .fieldName behind with
    | error refusal => rfl
    | ok found =>
        obtain ⟨slot, rest⟩ := found
        dsimp only
        split
        case h_1 => rfl
        case h_2 undotted =>
          rw [dotThen_undotted undotted]
          rfl
  case h_2 undotted =>
    rw [dotThen_undotted undotted]
    rfl

/-- A reader that goes on behind a text refuses for what everything up to the
refusal lacks, and stays refusing whatever follows the refused character. -/
structure Refuses (before : List Char)
    (read : List Char → Except Refusal α) : Prop where
  lacks : ∀ {text refusal}, read text = .error refusal →
    ∃ start, text = start ++ refusal.rest ∧
      Lacks (before ++ start) refusal.expected
  settled : ∀ {start missing char rest},
    read (start ++ char :: rest) = .error ⟨missing, char :: rest⟩ →
    ∀ other, read (start ++ char :: other) = .error ⟨missing, char :: other⟩

namespace Refuses

variable {before : List Char}

theorem nameThen {expected : Expected}
    {next : String → List Char → Except Refusal α}
    (missing : ∀ blanks, IsBlankRun blanks → Lacks (before ++ blanks) expected)
    (rest : ∀ name padded, Padded name padded →
      Refuses (before ++ padded) (next name)) :
    Refuses before (nameThen expected next) := by
  constructor
  · intro text refusal refused
    cases read : readName expected text with
    | error found =>
        simp only [Path.nameThen, read, bind, Except.bind,
          Except.error.injEq] at refused
        subst refused
        obtain ⟨rfl, blanks, run, split⟩ := readName_refuses read
        exact ⟨blanks, split, missing blanks run⟩
    | ok found =>
        obtain ⟨name, later⟩ := found
        simp only [Path.nameThen, read, bind, Except.bind] at refused
        obtain ⟨padded, isPadded, rfl⟩ := readName_sound read
        obtain ⟨start, rfl, lacks⟩ := (rest name padded isPadded).lacks refused
        exact ⟨padded ++ start, by simp, by simpa using lacks⟩
  · intro start missing char tail refused other
    cases read : readName expected (start ++ char :: tail) with
    | error found =>
        simp only [Path.nameThen, read, bind, Except.bind,
          Except.error.injEq] at refused
        subst refused
        simp [Path.nameThen, readName_refusal_settled read other, bind,
          Except.bind]
    | ok found =>
        obtain ⟨name, later⟩ := found
        simp only [Path.nameThen, read, bind, Except.bind] at refused
        obtain ⟨padded, isPadded, -⟩ := readName_sound read
        have onward := rest name padded isPadded
        obtain ⟨behind, rfl, -⟩ := onward.lacks refused
        simp only [Path.nameThen, readName_settled read other, bind,
          Except.bind]
        exact onward.settled refused other

theorem dotThen {behind otherwise : List Char → Except Refusal α}
    (dotted : Refuses (before ++ ['.']) behind)
    (undotted : Refuses before otherwise) :
    Refuses before (dotThen behind otherwise) := by
  constructor
  · intro text refusal refused
    unfold Path.dotThen at refused
    split at refused
    case h_1 rest =>
      obtain ⟨start, rfl, lacks⟩ := dotted.lacks refused
      exact ⟨'.' :: start, by simp, by simpa using lacks⟩
    case h_2 => exact undotted.lacks refused
  · intro start missing char rest refused other
    cases start with
    | nil =>
        by_cases dot : char = '.'
        · subst dot
          -- A reader behind the dot has refused something behind the dot.
          obtain ⟨start, split, -⟩ := dotted.lacks refused
          have longer := congrArg List.length split
          simp only [List.length_append, List.length_cons] at longer
          omega
        · rw [List.nil_append, dotThen_undotted (undotted_of_ne dot _)]
            at refused ⊢
          rw [← List.nil_append (char :: _)] at refused ⊢
          exact undotted.settled refused other
    | cons head start =>
        by_cases dot : head = '.'
        · subst dot
          exact dotted.settled refused other
        · rw [List.cons_append, dotThen_undotted (undotted_of_ne dot _),
            ← List.cons_append] at refused ⊢
          exact undotted.settled refused other

theorem endWith {result : α} (complete : Lacks before .endOfText) :
    Refuses before (endWith result) := by
  constructor
  · intro text refusal refused
    cases text with
    | nil => simp [Path.endWith, readEnd, bind, Except.bind, pure,
        Except.pure] at refused
    | cons char rest =>
        simp only [Path.endWith, readEnd, bind, Except.bind,
          Except.error.injEq] at refused
        subst refused
        exact ⟨[], rfl, by simpa using complete⟩
  · intro start missing char rest refused other
    cases start with
    | nil =>
        simp only [Path.endWith, readEnd, bind, Except.bind, List.nil_append,
          Except.error.injEq, Refusal.mk.injEq] at refused ⊢
        exact ⟨refused.1, trivial⟩
    | cons head start =>
        simp only [Path.endWith, readEnd, bind, Except.bind, List.cons_append,
          Except.error.injEq, Refusal.mk.injEq] at refused
        have longer := congrArg List.length refused.2
        simp only [List.length_append, List.length_cons] at longer
        omega

theorem undotted {object : String} (padded : Padded object before) :
    Refuses (α := α) before fun rest => .error ⟨.dot, rest⟩ := by
  constructor
  · intro text refusal refused
    cases refused
    exact ⟨[], rfl, by simpa using Lacks.dot padded⟩
  · intro start missing char rest refused other
    simp only [Except.error.injEq, Refusal.mk.injEq] at refused ⊢
    have none : start = [] := by simpa using refused.2
    exact ⟨refused.1, by rw [none, List.nil_append]⟩

end Refuses

theorem refuses_ofChars : Refuses [] ofChars := by
  rw [funext ofChars_eq]
  apply Refuses.nameThen
  · exact fun blanks run => .objectName run
  intro object objectText paddedObject
  apply Refuses.dotThen _ (.undotted paddedObject)
  apply Refuses.nameThen
  · intro blanks run
    simpa using Lacks.fieldName paddedObject run
  intro slot slotText paddedSlot
  apply Refuses.dotThen
  · apply Refuses.nameThen
    · intro blanks run
      simpa using Lacks.propertyName paddedObject paddedSlot run
    intro name nameText paddedName
    apply Refuses.endWith
    simpa using Lacks.endOfText (.property paddedObject paddedSlot paddedName)
  · apply Refuses.endWith
    simpa using Lacks.endOfText (.field paddedObject paddedSlot)

/-! ## What a beginning lacks is one thing -/

/-- A character that no path text contains. -/
structure IsForeign (char : Char) : Prop where
  noBlank : isBlank char = false
  noName : continuesName char = false
  noDot : char ≠ '.'

section Foreign

variable {char : Char} (foreign : IsForeign char) (rest : List Char)
include foreign

theorem readName_blanks_foreign {blanks : List Char} (run : IsBlankRun blanks)
    (expected : Expected) :
    readName expected (blanks ++ char :: rest) =
      .error ⟨expected, char :: rest⟩ := by
  have noStart : startsName char = false := by
    rw [← Bool.not_eq_true]
    intro starts
    have continues :=
      (continuesName_iff char).2 (.inl ((startsName_iff char).1 starts))
    rw [foreign.noName] at continues
    cases continues
  have skipped : skipBlanks (blanks ++ char :: rest) = char :: rest := by
    rw [skipBlanks_blanks run]
    simp [skipBlanks, foreign.noBlank]
  simp [readName, skipped, noStart]

theorem readName_padded_foreign {name : String} {padded : List Char}
    (isPadded : Padded name padded) (expected : Expected) :
    readName expected (padded ++ char :: rest) = .ok (name, char :: rest) := by
  apply readName_complete isPadded
  · intro head atHead
    cases atHead
    exact foreign.noBlank
  · intro head atHead
    cases atHead
    exact foreign.noName

/-- Behind the beginning of a path text, a foreign character is refused for
what the beginning lacks. -/
theorem ofChars_foreign {start : List Char} {missing : Expected}
    (lacks : Lacks start missing) :
    ofChars (start ++ char :: rest) = .error ⟨missing, char :: rest⟩ := by
  have undotted (behind otherwise : List Char → Except Refusal Path) :
      dotThen behind otherwise (char :: rest) = otherwise (char :: rest) :=
    dotThen_undotted (undotted_of_ne foreign.noDot rest)
  have ended (path : Path) :
      endWith path (char :: rest) = .error ⟨.endOfText, char :: rest⟩ := rfl
  have named {name : String} {padded : List Char}
      (isPadded : Padded name padded) (expected : Expected) :=
    readName_padded_foreign foreign rest isPadded expected
  have blank {blanks : List Char} (run : IsBlankRun blanks)
      (expected : Expected) :=
    readName_blanks_foreign foreign rest run expected
  rw [ofChars_eq]
  cases lacks with
  | objectName run => simp [nameThen, blank run, bind, Except.bind]
  | dot object => simp [nameThen, named object, undotted, bind, Except.bind]
  | fieldName object run =>
      simp [nameThen, readName_before_dot object, dotThen_dot, blank run, bind,
        Except.bind]
  | propertyName object slot run =>
      simp [nameThen, readName_before_dot object, readName_before_dot slot,
        dotThen_dot, blank run, bind, Except.bind]
  | endOfText written =>
      cases written with
      | field object slot =>
          simp [nameThen, readName_before_dot object, dotThen_dot, named slot,
            undotted, ended, bind, Except.bind]
      | property object slot name =>
          simp [nameThen, readName_before_dot object, readName_before_dot slot,
            dotThen_dot, named name, ended, bind, Except.bind]

end Foreign

theorem Lacks.unique {start : List Char} {first second : Expected}
    (left : Lacks start first) (right : Lacks start second) :
    first = second := by
  -- What a beginning lacks is what a foreign character behind it is refused for.
  have foreign : IsForeign '!' := ⟨rfl, rfl, by decide⟩
  have same := (ofChars_foreign foreign [] left).symm.trans
    (ofChars_foreign foreign [] right)
  simpa using same

/-! ## Columns -/

/-- The characters of a text behind its last line feed. -/
def IsLastLine (text line : List Char) : Prop :=
  '\n' ∉ line ∧ (text = line ∨ ∃ earlier, text = earlier ++ '\n' :: line)

theorem exists_isLastLine (text : List Char) :
    ∃ line, IsLastLine text line ∧ columnAfter text = 1 + line.length := by
  let inLine : Char → Bool := (· != '\n')
  have split : text = (text.reverse.dropWhile inLine).reverse ++
      (text.reverse.takeWhile inLine).reverse := by
    rw [← List.reverse_append, List.takeWhile_append_dropWhile,
      List.reverse_reverse]
  refine ⟨(text.reverse.takeWhile inLine).reverse, ⟨?_, ?_⟩, ?_⟩
  · intro member
    have inside : inLine '\n' = true :=
      List.all_eq_true.1 List.all_takeWhile _ (List.mem_reverse.1 member)
    simp [inLine] at inside
  · have stops := endsRun_dropWhile inLine text.reverse
    cases dropped : text.reverse.dropWhile inLine with
    | nil =>
        rw [dropped] at split
        exact .inl (by simpa using split)
    | cons char rest =>
        rw [dropped] at split stops
        have feed : char = '\n' := by simpa [inLine] using stops char rfl
        refine .inr ⟨rest.reverse, ?_⟩
        rw [List.reverse_cons, feed, List.append_assoc] at split
        exact split
  · rw [columnAfter, List.length_reverse]

theorem IsLastLine.length_le {text line : List Char}
    (isLast : IsLastLine text line) : line.length ≤ text.length := by
  rcases isLast.2 with rfl | ⟨earlier, rfl⟩
  · exact Nat.le_refl _
  · simp only [List.length_append, List.length_cons]
    omega

theorem IsLastLine.eq_of_not_mem {text line : List Char}
    (isLast : IsLastLine text line) (single : '\n' ∉ text) : text = line := by
  rcases isLast.2 with same | ⟨earlier, rfl⟩
  · exact same
  · simp at single

/-! ## Refused texts -/

theorem parse_eq_error_iff {text : String} {error : SyntaxError} :
    parse text = .error error ↔ ∃ refusal, ofChars text.toList = .error refusal ∧
      error = ⟨refusal.expected.message, columnAfter (text.toList.take
        (text.toList.length - refusal.rest.length)), text⟩ := by
  unfold parse
  cases ofChars text.toList with
  | ok path => simp
  | error refusal => simp [eq_comm]

theorem not_viable_of_refused {start rest : List Char} {char : Char}
    {missing : Expected}
    (refused : ofChars (start ++ char :: rest) =
      .error ⟨missing, char :: rest⟩) : ¬ Viable (start ++ [char]) := by
  rw [viable_iff]
  rintro ⟨other, path, written⟩
  have accepted := ofChars_complete written
  rw [List.append_assoc, List.singleton_append,
    refuses_ofChars.settled refused other] at accepted
  cases accepted

/-- A text that is refused has a longest beginning that some path text starts
with.  The message names the one thing that this beginning lacks: one of the
three names, a dot, or the end if the beginning is a complete path, which then
has something left behind it.  The column is one more than the length of the
last line of the beginning, and the caret stands below it. -/
theorem parse_refuses_behind_viable (text : String) (error : SyntaxError)
    (refused : parse text = .error error) :
    ∃ offset missing, offset ≤ text.length ∧
      Viable (text.toList.take offset) ∧
      (offset = text.length ∨ ¬ Viable (text.toList.take (offset + 1))) ∧
      (∀ expected, Lacks (text.toList.take offset) expected ↔
        expected = missing) ∧
      (missing = .objectName →
        error.message = "Syntax error: expected object name") ∧
      (missing = .dot → error.message = "Syntax error: expected '.'") ∧
      (missing = .fieldName →
        error.message = "Syntax error: expected field name") ∧
      (missing = .propertyName →
        error.message = "Syntax error: expected property name") ∧
      (missing = .endOfText →
        error.message = "Syntax error near Eof" ∧ offset < text.length) ∧
      (∃ line, IsLastLine (text.toList.take offset) line ∧
        error.column = 1 + line.length) ∧
      error.input = text ∧
      1 ≤ error.column ∧ error.column ≤ text.length + 1 ∧
      ('\n' ∉ text.toList → error.column = offset + 1) ∧
      error.caret =
        String.ofList (List.replicate (error.column - 1) ' ') ++ "^" := by
  obtain ⟨refusal, read, rfl⟩ := parse_eq_error_iff.1 refused
  obtain ⟨start, split, lacks⟩ := refuses_ofChars.lacks read
  rw [List.nil_append] at lacks
  have length : text.length = start.length + refusal.rest.length := by
    rw [← String.length_toList, split, List.length_append]
  have consumed : text.toList.take start.length = start := by
    rw [split, List.take_left]
  have counted : text.toList.take
      (text.toList.length - refusal.rest.length) = start := by
    rw [split, List.length_append, Nat.add_sub_cancel, List.take_left]
  obtain ⟨line, isLast, column⟩ := exists_isLastLine start
  have within := isLast.length_le
  have names {expected : Expected} (same : refusal.expected = expected) :
      refusal.expected.message = expected.message := by
    rw [same]
  rw [counted]
  refine ⟨start.length, refusal.expected, by omega, ?_, ?_, ?_, names, names,
    names, names, ?_, ⟨line, ?_, column⟩, rfl, by simp only [column]; omega,
    by simp only [column]; omega, ?_, ?_⟩
  · rw [consumed]
    exact lacks.viable
  · cases left : refusal.rest with
    | nil =>
        left
        rw [length, left]
        rfl
    | cons char rest =>
        right
        have next : text.toList.take (start.length + 1) = start ++ [char] := by
          rw [split, left, List.take_length_add_append]
          rfl
        rw [next]
        apply not_viable_of_refused
        rw [← left, ← split]
        exact read
  · intro expected
    rw [consumed]
    constructor
    · exact fun other => other.unique lacks
    · rintro rfl
      exact lacks
  · intro ends
    refine ⟨names ends, ?_⟩
    rw [ends] at lacks
    cases lacks with
    | endOfText written =>
        cases left : refusal.rest with
        | nil =>
            rw [left, List.append_nil] at split
            rw [split, ofChars_complete written] at read
            cases read
        | cons char rest =>
            rw [length, left, List.length_cons]
            omega
  · rw [consumed]
    exact isLast
  · intro single
    have same : start = line := by
      apply isLast.eq_of_not_mem
      rw [split] at single
      exact fun member => single (List.mem_append_left _ member)
    change columnAfter start = start.length + 1
    rw [column, ← same, Nat.add_comm]
  · have fits : min (columnAfter start - 1) text.length =
        columnAfter start - 1 := by
      rw [column]
      omega
    simp only [SyntaxError.caret, fits]

/-- Whether a text is refused with a message in front of the first character, or
the end, where no path text can go on. -/
def StopsAt (text message : String) (column : Nat) : Prop :=
  parse text = .error ⟨message, column, text⟩ ∧
    Viable (text.toList.take (column - 1)) ∧
    (column - 1 = text.length ∨ ¬ Viable (text.toList.take column))

/-- A digit for an object, an object alone, a second dot for a field, a second
dot at the end, and a word behind a complete path. -/
theorem parse_refuses_each_part :
    StopsAt "7.x" "Syntax error: expected object name" 1 ∧
      StopsAt "A" "Syntax error: expected '.'" 2 ∧
      StopsAt "A..x" "Syntax error: expected field name" 3 ∧
      StopsAt "A.x." "Syntax error: expected property name" 5 ∧
      StopsAt "A.x y" "Syntax error near Eof" 5 := by
  have stops {text message : String} {column : Nat}
      (refused : parse text = .error ⟨message, column, text⟩)
      (single : '\n' ∉ text.toList) : StopsAt text message column := by
    obtain ⟨offset, -, -, viable, stuck, -, -, -, -, -, -, -, -, -, -, here, -⟩ :=
      parse_refuses_behind_viable text _ refused
    have same : column = offset + 1 := here single
    rw [StopsAt, same, Nat.add_sub_cancel]
    rw [same] at refused
    exact ⟨refused, viable, stuck⟩
  refine ⟨?_, ?_, ?_, ?_, ?_⟩
  · exact stops rfl (by simp)
  · exact stops rfl (by simp)
  · exact stops rfl (by simp)
  · exact stops rfl (by simp)
  · exact stops rfl (by simp)

end DiagramEnergy.Path
