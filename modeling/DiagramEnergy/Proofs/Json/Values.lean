import DiagramEnergy.Proofs.Json.Literals
import DiagramEnergy.Proofs.Json.Text

/-!
# Written values read back

A value is legible if it reads back as itself from in front of every rest that
does not go on with a number, with fuel for twice the length of its text.
Arrays and objects of legible values are legible.
-/

namespace DiagramEnergy.Json

/-- What is written in front of a rest does not depend on the rest, and reads
back. -/
structure Legible (json : Json) : Prop where
  append : ∀ rest more, json.write (rest ++ more) = json.write rest ++ more
  opens : ∀ rest, ∃ first others, json.write rest = first :: others ∧
    isBlank first = false ∧ first ≠ ']'
  reads : ∀ fuel rest, Stops ['.', 'e', 'E'] rest →
    2 * (json.write []).length ≤ fuel →
      readValue fuel (json.write rest) = some (json, rest)

theorem skipBlanks_cons {first : Char} {others : List Char}
    (noBlank : isBlank first = false) :
    skipBlanks (first :: others) = first :: others := by
  simp [skipBlanks, noBlank]

theorem readValue_of_startsNumber (fuel : Nat) {first : Char}
    (others : List Char) (starts : StartsNumber first) :
    readValue (fuel + 1) (first :: others) =
      (readNumber (first :: others)).map fun (literal, rest) =>
        (.number literal, rest) := by
  rw [readValue, skipBlanks_cons starts.isBlank_eq_false]
  split
  case h_7 => cases readNumber (first :: others) <;> rfl
  all_goals
    rename_i same
    exact absurd (List.cons.inj same).1 (starts.ne (by decide) (by decide))

theorem readValue_bracket (fuel : Nat) {first : Char} (others : List Char)
    (noBlank : isBlank first = false) (noEnd : first ≠ ']') :
    readValue (fuel + 1) ('[' :: first :: others) =
      (readElements fuel (first :: others)).map fun (elements, rest) =>
        (.array elements, rest) := by
  rw [readValue, skipBlanks_cons rfl]
  simp only [skipBlanks_cons noBlank]
  split
  case h_1 same => exact absurd (List.cons.inj same).1 noEnd
  case h_2 => cases readElements fuel (first :: others) <;> rfl

theorem readValue_brace (fuel : Nat) (others : List Char) :
    readValue (fuel + 1) ('\x7b' :: '"' :: others) =
      (readMembers fuel ('"' :: others)).map fun (members, rest) =>
        (.object members, rest) := by
  rw [readValue, skipBlanks_cons rfl]
  simp only [skipBlanks_cons (show isBlank '"' = false from rfl)]
  split
  case h_1 same => cases same
  case h_2 => cases readMembers fuel ('"' :: others) <;> rfl

theorem writeText_append (characters : JsonText) (rest more : List Char) :
    writeText characters (rest ++ more) = writeText characters rest ++ more := by
  cases characters with
  | none => simp [writeText]
  | some characters =>
      have body : ∀ chars rest, writeChars chars (rest ++ more) =
          writeChars chars rest ++ more := by
        intro chars rest
        induction chars with
        | nil => rfl
        | cons char chars induction => simp [writeChars, induction]
      simp [writeText, ← body]

/-- Half of a surrogate pair is read as a missing text, as which it is written. -/
theorem writeText_starts (characters : JsonText) (rest : List Char) :
    ∃ body, writeText characters rest = '"' :: body ∧
      readText body = some (characters, rest) := by
  cases characters with
  | none => exact ⟨_, rfl, rfl⟩
  | some characters => exact ⟨_, rfl, readText_writeChars characters rest⟩

theorem length_writeText (characters : JsonText) (rest : List Char) :
    (writeText characters rest).length =
      (writeText characters []).length + rest.length := by
  have apart := writeText_append characters [] rest
  rw [List.nil_append] at apart
  rw [apart, List.length_append]

theorem readMembers_last {fuel : Nat} {source rest : List Char} {value : Json}
    (key : JsonText) (read : readValue fuel source = some (value, '\x7d' :: rest)) :
    readMembers (fuel + 1) (writeText key (':' :: source)) =
      some ([(key, value)], rest) := by
  obtain ⟨body, written, keyRead⟩ := writeText_starts key (':' :: source)
  rw [written, readMembers, skipBlanks_cons rfl]
  simp only [keyRead, read, Option.bind_eq_bind, Option.bind_some,
    skipBlanks_cons (show isBlank ':' = false from rfl),
    skipBlanks_cons (show isBlank '\x7d' = false from rfl)]
  rfl

theorem readMembers_next {fuel : Nat} {source more rest : List Char} {value : Json}
    {members : List (JsonText × Json)} (key : JsonText)
    (read : readValue fuel source = some (value, ',' :: more))
    (others : readMembers fuel more = some (members, rest)) :
    readMembers (fuel + 1) (writeText key (':' :: source)) =
      some ((key, value) :: members, rest) := by
  obtain ⟨body, written, keyRead⟩ := writeText_starts key (':' :: source)
  rw [written, readMembers, skipBlanks_cons rfl]
  simp only [keyRead, read, others, Option.bind_eq_bind, Option.bind_some,
    skipBlanks_cons (show isBlank ':' = false from rfl),
    skipBlanks_cons (show isBlank ',' = false from rfl)]
  rfl

namespace Legible

variable {json : Json}

theorem length_write (legible : Legible json) (rest : List Char) :
    (json.write rest).length = (json.write []).length + rest.length := by
  have apart := legible.append [] rest
  simp only [List.nil_append] at apart
  rw [apart, List.length_append]

/-- A legible value is the only thing in its own text. -/
theorem parse_render (legible : Legible json) :
    parse json.render = some json := by
  have stops : Stops ['.', 'e', 'E'] [] := by rintro next ⟨⟩
  have read := legible.reads (2 * (json.write []).length + 2) [] stops (by omega)
  rw [parse, render, String.length_ofList, String.toList_ofList, read]
  rfl

/-! ## Values without parts -/

theorem null : Legible .null where
  append _ _ := rfl
  opens _ := ⟨'n', _, rfl, by decide, by decide⟩
  reads fuel rest _ enough := by
    cases fuel with
    | zero => simp [write] at enough
    | succ fuel => rfl

theorem bool (truth : Bool) : Legible (.bool truth) where
  append _ _ := by cases truth <;> rfl
  opens _ := by
    cases truth
    · exact ⟨'f', _, rfl, by decide, by decide⟩
    · exact ⟨'t', _, rfl, by decide, by decide⟩
  reads fuel rest _ enough := by
    cases truth <;> cases fuel with
    | zero => simp [write] at enough
    | succ fuel => rfl

theorem number {literal : JsonNumber} (wellFormed : literal.WellFormed) :
    Legible (.number literal) where
  append rest more := by simp [write, writeNumber]
  opens rest := by
    obtain ⟨first, others, written, starts⟩ := writeNumber_starts wellFormed rest
    exact ⟨first, others, written, starts.isBlank_eq_false,
      starts.ne (by decide) (by decide)⟩
  reads fuel rest stops enough := by
    obtain ⟨first, others, written, starts⟩ := writeNumber_starts wellFormed rest
    cases fuel with
    | zero =>
        obtain ⟨first, others, written, -⟩ := writeNumber_starts wellFormed []
        simp [write, written] at enough
    | succ fuel =>
        rw [write, written, readValue_of_startsNumber fuel others starts, ← written,
          readNumber_write wellFormed stops]
        rfl

theorem text (characters : JsonText) : Legible (.text characters) where
  append rest more := by rw [write, writeText_append, write]
  opens rest := by
    obtain ⟨body, written, -⟩ := writeText_starts characters rest
    exact ⟨'"', body, written, by decide, by decide⟩
  reads fuel rest _ enough := by
    obtain ⟨body, written, read⟩ := writeText_starts characters rest
    cases fuel with
    | zero =>
        obtain ⟨body, written, -⟩ := writeText_starts characters []
        simp [write, written] at enough
    | succ fuel => rw [write, written, readValue_quoted, read]; rfl

/-! ## Arrays -/

theorem writeElements_append {elements : List Json}
    (each : ∀ element ∈ elements, Legible element) (rest more : List Char) :
    writeElements elements (rest ++ more) = writeElements elements rest ++ more := by
  induction elements with
  | nil => rfl
  | cons element elements induction =>
      have first := (each element (by simp)).append
      cases elements with
      | nil => exact first rest more
      | cons next others =>
          simp only [writeElements]
          rw [induction fun other member => each other (by simp [member]),
            ← first, List.cons_append]

theorem readElements_writeElements {elements : List Json}
    (each : ∀ element ∈ elements, Legible element) (filled : elements ≠ [])
    (rest : List Char) (fuel : Nat)
    (enough : 2 * (writeElements elements []).length < fuel) :
    readElements fuel (writeElements elements (']' :: rest)) =
      some (elements, rest) := by
  induction elements generalizing fuel with
  | nil => exact absurd rfl filled
  | cons element elements induction =>
      have legible := each element (by simp)
      obtain ⟨fuel, rfl⟩ : ∃ less, fuel = less + 1 := ⟨fuel - 1, by omega⟩
      cases elements with
      | nil =>
          simp only [writeElements] at enough ⊢
          rw [readElements, legible.reads fuel (']' :: rest)
            (.cons (by decide) (by decide)) (by omega)]
          rfl
      | cons next others =>
          simp only [writeElements] at enough ⊢
          rw [legible.length_write, List.length_cons] at enough
          have others := induction (fun other member => each other (by simp [member]))
            (by simp) fuel (by omega)
          rw [readElements, legible.reads fuel _
            (.cons (by decide) (by decide)) (by omega)]
          simp only [Option.bind_eq_bind, Option.bind_some,
            skipBlanks_cons (show isBlank ',' = false from rfl), others]
          rfl

theorem writeElements_opens {elements : List Json}
    (each : ∀ element ∈ elements, Legible element) (filled : elements ≠ [])
    (rest : List Char) :
    ∃ first others, writeElements elements rest = first :: others ∧
      isBlank first = false ∧ first ≠ ']' := by
  cases elements with
  | nil => exact absurd rfl filled
  | cons element elements =>
      cases elements <;> exact (each element (by simp)).opens _

theorem array {elements : List Json}
    (each : ∀ element ∈ elements, Legible element) : Legible (.array elements) where
  append rest more := by
    simp only [write, List.cons_append]
    rw [← writeElements_append each, List.cons_append]
  opens rest := ⟨'[', _, rfl, by decide, by decide⟩
  reads fuel rest stops enough := by
    simp only [write, List.length_cons] at enough ⊢
    have length := congrArg List.length (writeElements_append each [] [']'])
    simp only [List.nil_append, List.length_append, List.length_singleton] at length
    obtain ⟨fuel, rfl⟩ : ∃ less, fuel = less + 1 := ⟨fuel - 1, by omega⟩
    by_cases filled : elements = []
    · obtain ⟨fuel, rfl⟩ : ∃ less, fuel = less + 1 := ⟨fuel - 1, by omega⟩
      rw [filled]
      rfl
    · obtain ⟨first, others, written, noBlank, noEnd⟩ :=
        writeElements_opens each filled (']' :: rest)
      rw [written, readValue_bracket fuel others noBlank noEnd, ← written,
        readElements_writeElements each filled rest fuel (by omega)]
      rfl

/-! ## Objects -/

theorem writeMembers_append {members : List (JsonText × Json)}
    (each : ∀ member ∈ members, Legible member.2) (rest more : List Char) :
    writeMembers members (rest ++ more) = writeMembers members rest ++ more := by
  induction members with
  | nil => rfl
  | cons member members induction =>
      obtain ⟨key, value⟩ := member
      have first := (each (key, value) (by simp)).append
      cases members with
      | nil =>
          simp only [writeMembers]
          rw [first, ← writeText_append, List.cons_append]
      | cons next others =>
          simp only [writeMembers]
          rw [induction fun other listed => each other (by simp [listed]),
            ← writeText_append, List.cons_append, ← first, List.cons_append]

theorem writeMembers_opens {members : List (JsonText × Json)}
    (filled : members ≠ []) (rest : List Char) :
    ∃ others, writeMembers members rest = '"' :: others := by
  cases members with
  | nil => exact absurd rfl filled
  | cons member members =>
      obtain ⟨key, value⟩ := member
      cases members with
      | nil =>
          obtain ⟨body, written, -⟩ := writeText_starts key (':' :: value.write rest)
          exact ⟨body, written⟩
      | cons next others =>
          obtain ⟨body, written, -⟩ := writeText_starts key
            (':' :: value.write (',' :: writeMembers (next :: others) rest))
          exact ⟨body, written⟩

theorem readMembers_writeMembers {members : List (JsonText × Json)}
    (each : ∀ member ∈ members, Legible member.2) (filled : members ≠ [])
    (rest : List Char) (fuel : Nat)
    (enough : 2 * (writeMembers members []).length < fuel) :
    readMembers fuel (writeMembers members ('\x7d' :: rest)) =
      some (members, rest) := by
  induction members generalizing fuel with
  | nil => exact absurd rfl filled
  | cons member members induction =>
      obtain ⟨key, value⟩ := member
      have legible : Legible value := each (key, value) (by simp)
      obtain ⟨fuel, rfl⟩ : ∃ less, fuel = less + 1 := ⟨fuel - 1, by omega⟩
      cases members with
      | nil =>
          simp only [writeMembers] at enough ⊢
          rw [length_writeText, List.length_cons] at enough
          exact readMembers_last key (legible.reads fuel ('\x7d' :: rest)
            (.cons (by decide) (by decide)) (by omega))
      | cons next others =>
          simp only [writeMembers] at enough ⊢
          rw [length_writeText, List.length_cons, legible.length_write,
            List.length_cons] at enough
          exact readMembers_next key
            (legible.reads fuel _ (.cons (by decide) (by decide)) (by omega))
            (induction (fun other listed => each other (by simp [listed]))
              (by simp) fuel (by omega))

theorem object {members : List (JsonText × Json)}
    (each : ∀ member ∈ members, Legible member.2) : Legible (.object members) where
  append rest more := by
    simp only [write, List.cons_append]
    rw [← writeMembers_append each, List.cons_append]
  opens rest := ⟨'\x7b', _, rfl, by decide, by decide⟩
  reads fuel rest stops enough := by
    simp only [write, List.length_cons] at enough ⊢
    have length := congrArg List.length (writeMembers_append each [] ['\x7d'])
    simp only [List.nil_append, List.length_append, List.length_singleton] at length
    obtain ⟨fuel, rfl⟩ : ∃ less, fuel = less + 1 := ⟨fuel - 1, by omega⟩
    by_cases filled : members = []
    · obtain ⟨fuel, rfl⟩ : ∃ less, fuel = less + 1 := ⟨fuel - 1, by omega⟩
      rw [filled]
      rfl
    · obtain ⟨others, written⟩ := writeMembers_opens filled ('\x7d' :: rest)
      rw [written, readValue_brace fuel others, ← written,
        readMembers_writeMembers each filled rest fuel (by omega)]
      rfl

end Legible

end DiagramEnergy.Json
