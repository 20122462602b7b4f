import DiagramEnergy.Json.Reader
import DiagramEnergy.Json.Writer

/-!
# Written texts read back

A text is written one character at a time, with an escape where it needs one.
Each escape reads back as its own character, and none of the characters of a
text is half of a surrogate pair, so the whole text reads back as itself.
-/

namespace DiagramEnergy.Json

/-! ## One character -/

theorem hexDigits_of_control :
    ∀ code < 0x20, (hexDigits code).length = 4 ∧
      hexNumber? (hexDigits code) = some code := by
  decide

theorem readCodes_unicode {digits : List Char} {code : Nat}
    (four : digits.length = 4) (digitsRead : hexNumber? digits = some code)
    (rest : List Char) :
    readCodes ('\\' :: 'u' :: (digits ++ rest)) =
      (readCodes rest).map fun (codes, rest) => (code :: codes, rest) := by
  match digits, four with
  | [a, b, c, d], _ =>
      simp only [List.cons_append, List.nil_append, readCodes, digitsRead]
      cases readCodes rest <;> rfl

theorem readCodes_escaped {mark char : Char} (noUnicode : mark ≠ 'u')
    (stands : escaped? mark = some char) (rest : List Char) :
    readCodes ('\\' :: mark :: rest) =
      (readCodes rest).map fun (codes, rest) => (char.toNat :: codes, rest) := by
  rw [readCodes.eq_4 _ _ (by simp [noUnicode]), stands]
  cases readCodes rest <;> rfl

theorem readCodes_plain {char : Char} (noQuote : char ≠ '"')
    (noEscape : char ≠ '\\') (noControl : ¬ char.toNat < 0x20)
    (rest : List Char) :
    readCodes (char :: rest) =
      (readCodes rest).map fun (codes, rest) => (char.toNat :: codes, rest) := by
  rw [readCodes.eq_5 _ _ noQuote (by simp [noEscape]) (by simp [noEscape]),
    if_neg noControl]
  cases readCodes rest <;> rfl

/-- A character has a mark of its own, is a control character, or stands for
itself. -/
theorem escape_cases (char : Char) :
    (∃ mark, mark ≠ 'u' ∧ escaped? mark = some char ∧
      escape char = ['\\', mark]) ∨
    (char.toNat < 0x20 ∧ escape char = '\\' :: 'u' :: hexDigits char.toNat) ∨
    (char ≠ '"' ∧ char ≠ '\\' ∧ ¬ char.toNat < 0x20 ∧ escape char = [char]) := by
  by_cases marked : char ∈ ['"', '\\', '\x08', '\x0c', '\n', '\r', '\t']
  · left
    simp only [List.mem_cons, List.not_mem_nil, or_false] at marked
    rcases marked with rfl | rfl | rfl | rfl | rfl | rfl | rfl
    · exact ⟨'"', by decide⟩
    · exact ⟨'\\', by decide⟩
    · exact ⟨'b', by decide⟩
    · exact ⟨'f', by decide⟩
    · exact ⟨'n', by decide⟩
    · exact ⟨'r', by decide⟩
    · exact ⟨'t', by decide⟩
  · right
    simp only [List.mem_cons, List.not_mem_nil, or_false, not_or] at marked
    by_cases control : char.toNat < 0x20
    · exact .inl ⟨control, by simp [escape, marked, control]⟩
    · exact .inr ⟨marked.1, marked.2.1, control,
        by simp [escape, marked, control]⟩

/-- A written character reads back as its own code point. -/
theorem readCodes_escape (char : Char) (rest : List Char) :
    readCodes (escape char ++ rest) =
      (readCodes rest).map fun (codes, rest) => (char.toNat :: codes, rest) := by
  rcases escape_cases char with ⟨mark, noUnicode, stands, written⟩ |
    ⟨control, written⟩ | ⟨noQuote, noEscape, noControl, written⟩
  · rw [written]
    exact readCodes_escaped noUnicode stands rest
  · rw [written]
    obtain ⟨four, digitsRead⟩ := hexDigits_of_control char.toNat control
    exact readCodes_unicode four digitsRead rest
  · rw [written]
    exact readCodes_plain noQuote noEscape noControl rest

/-! ## Whole texts -/

theorem readCodes_writeChars (chars rest : List Char) :
    readCodes (writeChars chars ('"' :: rest)) =
      some (chars.map Char.toNat, rest) := by
  induction chars with
  | nil => simp [writeChars, readCodes]
  | cons char chars ih => simp [writeChars, readCodes_escape, ih]

theorem isHighHalf_toNat (char : Char) : isHighHalf char.toNat = false := by
  have valid : char.toNat.isValidChar := char.valid
  unfold Nat.isValidChar at valid
  simp only [isHighHalf, Bool.and_eq_false_iff, decide_eq_false_iff_not]
  omega

theorem isLowHalf_toNat (char : Char) : isLowHalf char.toNat = false := by
  have valid : char.toNat.isValidChar := char.valid
  unfold Nat.isValidChar at valid
  simp only [isLowHalf, Bool.and_eq_false_iff, decide_eq_false_iff_not]
  omega

/-- Characters are no halves, so nothing is joined. -/
theorem joinHalves_toNat (chars : List Char) :
    joinHalves (chars.map Char.toNat) = some chars := by
  induction chars with
  | nil => rfl
  | cons char chars ih =>
      cases chars with
      | nil =>
          simp [joinHalves, isHighHalf_toNat, isLowHalf_toNat,
            Char.ofNat_toNat]
      | cons next others =>
          simp only [List.map_cons] at ih ⊢
          simp [joinHalves, isHighHalf_toNat, isLowHalf_toNat,
            Char.ofNat_toNat, ih]

theorem readText_writeChars (characters : String) (rest : List Char) :
    readText (writeChars characters.toList ('"' :: rest)) =
      some (some characters, rest) := by
  simp [readText, readCodes_writeChars, joinHalves_toNat]

theorem readValue_quoted (fuel : Nat) (source : List Char) :
    readValue (fuel + 1) ('"' :: source) =
      (readText source).map fun (characters, rest) => (.text characters, rest) := by
  have opened : skipBlanks ('"' :: source) = '"' :: source := rfl
  simp only [readValue, opened]
  cases readText source <;> rfl

theorem parse_render_string (characters : String) :
    parse (string characters).render = some (string characters) := by
  have written : (string characters).render.toList =
      '"' :: writeChars characters.toList ['"'] := by
    simp [render, string, write, writeText]
  have noRest : skipBlanks [] = [] := rfl
  simp only [parse, written, readValue_quoted, readText_writeChars]
  simp [noRest, string]

end DiagramEnergy.Json
