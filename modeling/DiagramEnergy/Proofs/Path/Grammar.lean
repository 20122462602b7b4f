import DiagramEnergy.Path.Json
import DiagramEnergy.Proofs.Json.Text
import DiagramEnergy.Proofs.Outcomes

/-!
# The texts of a path

A path is written as its names in order with dots between them, where a name is
an identifier with any blanks around it.  Reading accepts exactly the written
texts, each with the path that it is a text of.  The text that a path is shown
and stored as is one of its written texts if all names are identifiers, and is
not read as this path otherwise.
-/

namespace DiagramEnergy.Path

/-! ## Written paths -/

/-- Spaces, tabs, carriage returns and line feeds. -/
def IsBlankRun (text : List Char) : Prop :=
  ∀ char ∈ text, char = ' ' ∨ char = '\t' ∨ char = '\r' ∨ char = '\n'

/-- The characters that an identifier can start with. -/
def IsLetter (char : Char) : Prop :=
  'A' ≤ char ∧ char ≤ 'Z' ∨ 'a' ≤ char ∧ char ≤ 'z' ∨ char = '_'

def IsDigit (char : Char) : Prop := '0' ≤ char ∧ char ≤ '9'

def IsIdentifier (name : String) : Prop :=
  ∃ first rest, name.toList = first :: rest ∧ IsLetter first ∧
    ∀ char ∈ rest, IsLetter char ∨ IsDigit char

/-- A text that is an identifier with blanks around it. -/
def Padded (name : String) (text : List Char) : Prop :=
  ∃ before after, IsBlankRun before ∧ IsIdentifier name ∧
    IsBlankRun after ∧ text = before ++ name.toList ++ after

/-- The texts of a path. -/
inductive Written : List Char → Path → Prop where
  | field {object slot : String} {objectText slotText : List Char} :
      Padded object objectText → Padded slot slotText →
      Written (objectText ++ '.' :: slotText) (.field object slot)
  | property {object slot name : String}
      {objectText slotText nameText : List Char} :
      Padded object objectText → Padded slot slotText →
      Padded name nameText →
      Written (objectText ++ '.' :: (slotText ++ '.' :: nameText))
        (.property object slot name)

theorem padded_of_identifier {name : String} (identifier : IsIdentifier name) :
    Padded name name.toList :=
  ⟨[], [], by simp [IsBlankRun], identifier, by simp [IsBlankRun], by simp⟩

/-! ## The classes of characters -/

theorem isBlank_iff (char : Char) :
    isBlank char = true ↔
      char = ' ' ∨ char = '\t' ∨ char = '\r' ∨ char = '\n' := by
  simp [isBlank, or_assoc]

theorem startsName_iff (char : Char) :
    startsName char = true ↔ IsLetter char := by
  have upper : char.isUpper = true ↔ 'A' ≤ char ∧ char ≤ 'Z' :=
    decide_eq_true_iff
  have lower : char.isLower = true ↔ 'a' ≤ char ∧ char ≤ 'z' :=
    Bool.and_eq_true_iff.trans (and_congr decide_eq_true_iff decide_eq_true_iff)
  have alpha : char.isAlpha = true ↔
      char.isUpper = true ∨ char.isLower = true := Bool.or_eq_true_iff
  simp only [startsName, IsLetter, Bool.or_eq_true, beq_iff_eq, alpha, upper,
    lower]
  rw [or_comm, or_assoc]

theorem continuesName_iff (char : Char) :
    continuesName char = true ↔ IsLetter char ∨ IsDigit char := by
  rw [← startsName_iff]
  simp only [continuesName, startsName, Char.isAlphanum, Char.isDigit, IsDigit,
    Bool.or_eq_true, Bool.and_eq_true, decide_eq_true_eq, Char.le_def,
    or_assoc, ge_iff_le]

theorem isBlankRun_iff (text : List Char) :
    IsBlankRun text ↔ ∀ char ∈ text, isBlank char = true := by
  simp only [IsBlankRun, isBlank_iff]

theorem isIdentifier_iff (name : String) :
    IsIdentifier name ↔
      ∃ first rest, name.toList = first :: rest ∧ startsName first = true ∧
        ∀ char ∈ rest, continuesName char = true := by
  simp only [IsIdentifier, startsName_iff, continuesName_iff]

/-! ## Skipping and taking characters -/

/-- No character of a run is at the head of the text. -/
def EndsRun (inRun : Char → Bool) (text : List Char) : Prop :=
  ∀ char ∈ text.head?, inRun char = false

theorem EndsRun.takeWhile_eq {inRun : Char → Bool} {text : List Char}
    (ends : EndsRun inRun text) : text.takeWhile inRun = [] := by
  cases text with
  | nil => rfl
  | cons char rest => simp [ends char rfl]

theorem EndsRun.dropWhile_eq {inRun : Char → Bool} {text : List Char}
    (ends : EndsRun inRun text) : text.dropWhile inRun = text := by
  cases text with
  | nil => rfl
  | cons char rest => simp [ends char rfl]

theorem endsRun_dropWhile (inRun : Char → Bool) (text : List Char) :
    EndsRun inRun (text.dropWhile inRun) := by
  intro char atHead
  have stops := List.head?_dropWhile_not inRun text
  rw [atHead] at stops
  simpa using stops

theorem skipBlanks_skipBlanks (text : List Char) :
    skipBlanks (skipBlanks text) = skipBlanks text :=
  (endsRun_dropWhile isBlank text).dropWhile_eq

theorem skipBlanks_blanks {blanks : List Char} (run : IsBlankRun blanks)
    (rest : List Char) : skipBlanks (blanks ++ rest) = skipBlanks rest := by
  unfold skipBlanks
  exact List.dropWhile_append_of_pos ((isBlankRun_iff blanks).1 run)

/-- What is skipped is blank. -/
theorem exists_skipBlanks (text : List Char) :
    ∃ blanks, IsBlankRun blanks ∧ text = blanks ++ skipBlanks text :=
  ⟨text.takeWhile isBlank,
    (isBlankRun_iff _).2 (List.all_eq_true.1 List.all_takeWhile),
    List.takeWhile_append_dropWhile.symm⟩

/-! ## Reading one name -/

theorem not_isBlank_of_startsName {char : Char}
    (starts : startsName char = true) : isBlank char = false := by
  cases blank : isBlank char with
  | false => rfl
  | true =>
      rcases (isBlank_iff char).1 blank with rfl | rfl | rfl | rfl <;>
        simp_all [startsName]

theorem not_continuesName_of_isBlank {char : Char}
    (blank : isBlank char = true) : continuesName char = false := by
  rcases (isBlank_iff char).1 blank with rfl | rfl | rfl | rfl <;> rfl

theorem readName_skipBlanks (expected : Expected) (text : List Char) :
    readName expected (skipBlanks text) = readName expected text := by
  simp only [readName, skipBlanks_skipBlanks]

theorem readName_sound {expected : Expected} {text rest : List Char}
    {name : String} (read : readName expected text = .ok (name, rest)) :
    ∃ padded, Padded name padded ∧ text = padded ++ rest := by
  obtain ⟨before, runBefore, split⟩ := exists_skipBlanks text
  cases skipped : skipBlanks text with
  | nil => simp [readName, skipped] at read
  | cons first tail =>
      rw [skipped] at split
      by_cases starts : startsName first = true
      · simp only [readName, skipped, starts, if_true, Except.ok.injEq,
          Prod.mk.injEq] at read
        obtain ⟨rfl, rfl⟩ := read
        obtain ⟨after, runAfter, resumed⟩ :=
          exists_skipBlanks (tail.dropWhile continuesName)
        refine ⟨_, ⟨before, after, runBefore,
          (isIdentifier_iff _).2 ⟨first, tail.takeWhile continuesName,
            String.toList_ofList, starts,
            List.all_eq_true.1 List.all_takeWhile⟩, runAfter, rfl⟩, ?_⟩
        calc text = before ++ first :: tail := split
          _ = before ++ first :: (tail.takeWhile continuesName ++
                tail.dropWhile continuesName) := by
              rw [List.takeWhile_append_dropWhile]
          _ = _ := by
              conv => lhs; rw [resumed]
              simp
      · simp [readName, skipped, starts] at read

theorem readName_complete {name : String} {padded : List Char}
    (isPadded : Padded name padded) {rest : List Char}
    (noBlank : EndsRun isBlank rest) (noName : EndsRun continuesName rest)
    (expected : Expected) :
    readName expected (padded ++ rest) = .ok (name, rest) := by
  obtain ⟨before, after, runBefore, identifier, runAfter, rfl⟩ := isPadded
  obtain ⟨first, tail, spelled, starts, continues⟩ :=
    (isIdentifier_iff name).1 identifier
  have stops : EndsRun continuesName (after ++ rest) := by
    cases after with
    | nil => exact noName
    | cons char others =>
        intro _ atHead
        cases atHead
        exact not_continuesName_of_isBlank
          ((isBlankRun_iff _).1 runAfter char List.mem_cons_self)
  have skipped : skipBlanks (before ++ name.toList ++ after ++ rest) =
      first :: (tail ++ (after ++ rest)) := by
    rw [spelled, List.append_assoc, List.append_assoc,
      skipBlanks_blanks runBefore, skipBlanks, List.cons_append,
      List.dropWhile_cons_of_neg (by simp [not_isBlank_of_startsName starts])]
  have resumed : skipBlanks (after ++ rest) = rest := by
    rw [skipBlanks_blanks runAfter]
    exact noBlank.dropWhile_eq
  simp only [readName, skipped, starts, if_true,
    List.takeWhile_append_of_pos continues,
    List.dropWhile_append_of_pos continues, stops.takeWhile_eq,
    stops.dropWhile_eq, List.append_nil, resumed]
  rw [← spelled, String.ofList_toList]

theorem endsRun_dot {inRun : Char → Bool} (outside : inRun '.' = false)
    (rest : List Char) : EndsRun inRun ('.' :: rest) := by
  intro char atHead
  cases atHead
  exact outside

/-- A name is read up to a dot. -/
theorem readName_before_dot {name : String} {padded : List Char}
    (isPadded : Padded name padded) (expected : Expected) (rest : List Char) :
    readName expected (padded ++ '.' :: rest) = .ok (name, '.' :: rest) :=
  readName_complete isPadded (endsRun_dot rfl rest) (endsRun_dot rfl rest)
    expected

/-- A name is read up to the end of the text. -/
theorem readName_at_end {name : String} {padded : List Char}
    (isPadded : Padded name padded) (expected : Expected) :
    readName expected padded = .ok (name, []) := by
  have ends (inRun : Char → Bool) : EndsRun inRun [] := by simp [EndsRun]
  have read := readName_complete isPadded (ends _) (ends _) expected
  rwa [List.append_nil] at read

/-! ## Reading a path -/

theorem readDot_sound {text rest : List Char} (read : readDot text = .ok rest) :
    ∃ behind, text = '.' :: behind ∧ rest = skipBlanks behind := by
  unfold readDot at read
  split at read
  case h_1 behind => exact ⟨behind, rfl, by simpa using read.symm⟩
  case h_2 => simp at read

theorem readEnd_sound {text : List Char} (read : readEnd text = .ok ()) :
    text = [] := by
  unfold readEnd at read
  split at read
  case h_1 => rfl
  case h_2 => simp at read

theorem ofChars_sound {text : List Char} {path : Path}
    (read : ofChars text = .ok path) : Written text path := by
  simp only [ofChars, Except.bind_eq_ok] at read
  obtain ⟨⟨object, afterObject⟩, readObject, afterDot, dotRead,
    ⟨slot, afterSlot⟩, readSlot, read⟩ := read
  obtain ⟨objectText, paddedObject, rfl⟩ := readName_sound readObject
  obtain ⟨behind, rfl, rfl⟩ := readDot_sound dotRead
  rw [readName_skipBlanks] at readSlot
  obtain ⟨slotText, paddedSlot, rfl⟩ := readName_sound readSlot
  dsimp only at read
  split at read
  case h_1 rest =>
    simp only [Except.bind_eq_ok] at read
    obtain ⟨⟨name, afterName⟩, readProperty, ⟨⟩, endRead, isResult⟩ := read
    obtain ⟨nameText, paddedName, rfl⟩ := readName_sound readProperty
    obtain rfl := readEnd_sound endRead
    cases isResult
    rw [List.append_nil]
    exact .property paddedObject paddedSlot paddedName
  case h_2 =>
    simp only [Except.bind_eq_ok] at read
    obtain ⟨⟨⟩, endRead, isResult⟩ := read
    obtain rfl := readEnd_sound endRead
    cases isResult
    rw [List.append_nil]
    exact .field paddedObject paddedSlot

theorem ofChars_complete {text : List Char} {path : Path}
    (written : Written text path) : ofChars text = .ok path := by
  cases written with
  | field paddedObject paddedSlot =>
      simp [ofChars, bind, Except.bind, pure, Except.pure,
        readName_before_dot paddedObject, readDot, readName_skipBlanks,
        readName_at_end paddedSlot, readEnd]
  | property paddedObject paddedSlot paddedName =>
      simp [ofChars, bind, Except.bind, readName_before_dot paddedObject, readDot,
        readName_skipBlanks, readName_before_dot paddedSlot,
        readName_at_end paddedName, readEnd, pure, Except.pure]

theorem ofChars_iff (text : List Char) (path : Path) :
    ofChars text = .ok path ↔ Written text path :=
  ⟨ofChars_sound, ofChars_complete⟩

theorem parse_eq_ok_iff (text : String) (path : Path) :
    parse text = .ok path ↔ Written text.toList path := by
  rw [← ofChars_iff, parse]
  cases ofChars text.toList <;> simp

/-! ## The text of a path -/

theorem toList_text (path : Path) :
    path.text.toList =
      ['.'].intercalate (path.names.map String.toList) := by
  simp [text, String.toList_intercalate]

/-- A name of an identifier reads back from its own text. -/
theorem written_text {path : Path}
    (identifiers : ∀ name ∈ path.names, IsIdentifier name) :
    Written path.text.toList path := by
  rw [toList_text]
  have padded (name : String) (member : name ∈ path.names) :
      Padded name name.toList :=
    padded_of_identifier (identifiers name member)
  cases path with
  | field object slot =>
      simpa [names, List.intercalate] using
        Written.field (padded object (by simp [names]))
          (padded slot (by simp [names]))
  | property object slot name =>
      simpa [names, List.intercalate] using
        Written.property (padded object (by simp [names]))
          (padded slot (by simp [names])) (padded name (by simp [names]))

theorem Written.identifiers {text : List Char} {path : Path}
    (written : Written text path) : ∀ name ∈ path.names, IsIdentifier name := by
  have ofPadded {name : String} {padded : List Char}
      (isPadded : Padded name padded) : IsIdentifier name := by
    obtain ⟨_, _, _, identifier, _, _⟩ := isPadded
    exact identifier
  cases written with
  | field paddedObject paddedSlot =>
      simp [names, ofPadded paddedObject, ofPadded paddedSlot]
  | property paddedObject paddedSlot paddedName =>
      simp [names, ofPadded paddedObject, ofPadded paddedSlot,
        ofPadded paddedName]

theorem parse_text_iff (path : Path) :
    parse path.text = .ok path ↔ ∀ name ∈ path.names, IsIdentifier name := by
  rw [parse_eq_ok_iff]
  exact ⟨Written.identifiers, written_text⟩

theorem load?_save (path : Path) :
    load? path.save = (parse path.text).toOption := by
  rw [load?, save, toJson, Json.parse_render_string]
  rfl

theorem load?_save_iff (path : Path) :
    load? path.save = some path ↔ parse path.text = .ok path := by
  rw [load?_save]
  cases parse path.text <;> simp [Except.toOption]

/-- Reading accepts the written texts, and undoes showing and storing for the
paths of identifiers. -/
theorem parse_inverts_text :
    (∀ (text : String) (path : Path),
      parse text = .ok path ↔ Written text.toList path) ∧
    ∀ path : Path,
      (parse path.text = .ok path ↔ ∀ name ∈ path.names, IsIdentifier name) ∧
      (load? path.save = some path ↔ ∀ name ∈ path.names, IsIdentifier name) :=
  ⟨parse_eq_ok_iff, fun path =>
    ⟨parse_text_iff path, (load?_save_iff path).trans (parse_text_iff path)⟩⟩

end DiagramEnergy.Path
