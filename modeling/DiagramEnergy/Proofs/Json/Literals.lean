import DiagramEnergy.Json.Reader
import DiagramEnergy.Json.Writer

/-!
# Written numbers read back

A number is well-formed if its parts have digits and its whole part no leading
zero.  A well-formed number that is written in front of a rest reads back as
itself, unless the rest goes on with the number.
-/

namespace DiagramEnergy

/-- Digits, at least one. -/
def IsDigits (digits : List Char) : Prop :=
  digits ≠ [] ∧ ∀ digit ∈ digits, digit.isDigit = true

structure JsonNumber.WellFormed (literal : JsonNumber) : Prop where
  whole : IsDigits literal.whole
  noLeadingZero : literal.whole.head? = some '0' → literal.whole.length = 1
  fraction : ∀ digits ∈ literal.fraction, IsDigits digits
  exponent : ∀ exponent ∈ literal.exponent, IsDigits exponent.2

namespace Json

/-- The next character is none of `chars` and no digit. -/
def Stops (chars : List Char) (rest : List Char) : Prop :=
  ∀ next ∈ rest.head?, next.isDigit = false ∧ next ∉ chars

theorem Stops.weaken {chars others rest : List Char} (stops : Stops chars rest)
    (fewer : others ⊆ chars) : Stops others rest :=
  fun next first => ⟨(stops next first).1, fun member =>
    (stops next first).2 (fewer member)⟩

theorem Stops.cons {chars rest : List Char} {next : Char}
    (noDigit : next.isDigit = false) (other : next ∉ chars) :
    Stops chars (next :: rest) := by
  rintro char ⟨⟩
  exact ⟨noDigit, other⟩

theorem readDigits_append {digits rest : List Char} (isDigits : IsDigits digits)
    (stops : Stops [] rest) :
    readDigits (digits ++ rest) = some (digits, rest) := by
  have taken : rest.takeWhile Char.isDigit = [] ∧
      rest.dropWhile Char.isDigit = rest := by
    cases rest with
    | nil => exact ⟨rfl, rfl⟩
    | cons next rest =>
        have noDigit := (stops next rfl).1
        simp [noDigit]
  simp only [readDigits, List.takeWhile_append_of_pos isDigits.2,
    List.dropWhile_append_of_pos isDigits.2, taken, List.append_nil]
  rw [if_neg (by simpa using isDigits.1)]

/-! ## The parts of a number -/

def writeFraction (fraction : Option (List Char)) (rest : List Char) : List Char :=
  match fraction with
  | none => rest
  | some digits => '.' :: (digits ++ rest)

def writeExponent (exponent : Option (Bool × List Char)) (rest : List Char) :
    List Char :=
  match exponent with
  | none => rest
  | some (negative, digits) =>
    'e' :: (if negative then '-' else '+') :: (digits ++ rest)

theorem writeNumber_eq (literal : JsonNumber) (rest : List Char) :
    writeNumber literal rest =
      (if literal.negative then ['-'] else []) ++ (literal.whole ++
        writeFraction literal.fraction (writeExponent literal.exponent rest)) := by
  obtain ⟨negative, whole, fraction, exponent⟩ := literal
  rcases fraction with _ | digits <;> rcases exponent with _ | ⟨minus, places⟩ <;>
    simp [writeNumber, writeFraction, writeExponent]

theorem readWhole_append {whole rest : List Char} (isDigits : IsDigits whole)
    (noLeadingZero : whole.head? = some '0' → whole.length = 1)
    (stops : Stops [] rest) : readWhole (whole ++ rest) = some (whole, rest) := by
  have single : ¬(whole.head? = some '0' ∧ whole.length ≠ 1) :=
    fun ⟨zero, longer⟩ => longer (noLeadingZero zero)
  simp only [readWhole, readDigits_append isDigits stops, Option.bind_eq_bind,
    Option.bind_some, if_neg single]
  rfl

theorem readFraction_write {fraction : Option (List Char)} {rest : List Char}
    (isDigits : ∀ digits ∈ fraction, IsDigits digits) (stops : Stops ['.'] rest) :
    readFraction (writeFraction fraction rest) = some (fraction, rest) := by
  cases fraction with
  | some digits =>
      simp [writeFraction, readFraction, readDigits_append (isDigits digits rfl)
        (stops.weaken (List.nil_subset _))]
  | none =>
      cases rest with
      | nil => rfl
      | cons next rest =>
          have noPoint : next ≠ '.' := by simpa using (stops next rfl).2
          exact readFraction.eq_2 _ (by simp [writeFraction, noPoint])

theorem readExponent_write {exponent : Option (Bool × List Char)}
    {rest : List Char} (isDigits : ∀ part ∈ exponent, IsDigits part.2)
    (stops : Stops ['e', 'E'] rest) :
    readExponent (writeExponent exponent rest) = some (exponent, rest) := by
  cases exponent with
  | some part =>
      obtain ⟨negative, digits⟩ := part
      have read := readDigits_append (isDigits _ rfl)
        (stops.weaken (List.nil_subset _))
      cases negative <;>
        simp [writeExponent, readExponent, readExponentSign, read]
  | none =>
      cases rest with
      | nil => rfl
      | cons next rest =>
          have noMark : ¬(next = 'e' ∨ next = 'E') := by
            simpa using (stops next rfl).2
          simp only [writeExponent, readExponent]
          exact if_neg noMark

theorem stops_writeExponent (exponent : Option (Bool × List Char))
    {rest : List Char} (stops : Stops ['.', 'e', 'E'] rest) :
    Stops ['.'] (writeExponent exponent rest) := by
  cases exponent with
  | none => exact stops.weaken (by simp)
  | some part => exact .cons (by decide) (by decide)

theorem stops_writeFraction {fraction : Option (List Char)}
    {rest : List Char} (stops : Stops ['.'] rest) :
    Stops [] (writeFraction fraction rest) := by
  cases fraction with
  | none => exact stops.weaken (by simp)
  | some part => exact .cons (by decide) (by decide)

/-! ## Whole numbers -/

theorem readUnsigned_write {literal : JsonNumber} (wellFormed : literal.WellFormed)
    {rest : List Char} (stops : Stops ['.', 'e', 'E'] rest) :
    readUnsigned literal.negative (literal.whole ++
        writeFraction literal.fraction (writeExponent literal.exponent rest)) =
      some (literal, rest) := by
  have exponentStops := stops_writeExponent literal.exponent stops
  simp [readUnsigned, readWhole_append wellFormed.whole wellFormed.noLeadingZero
      (stops_writeFraction exponentStops),
    readFraction_write wellFormed.fraction exponentStops,
    readExponent_write wellFormed.exponent (stops.weaken (by simp))]

theorem readNumber_write {literal : JsonNumber} (wellFormed : literal.WellFormed)
    {rest : List Char} (stops : Stops ['.', 'e', 'E'] rest) :
    readNumber (writeNumber literal rest) = some (literal, rest) := by
  have read := readUnsigned_write wellFormed stops
  rw [writeNumber_eq]
  cases sign : literal.negative with
  | true =>
      rw [sign] at read
      exact read
  | false =>
      rw [sign] at read
      obtain ⟨filled, digits⟩ := wellFormed.whole
      cases whole : literal.whole with
      | nil => exact absurd whole filled
      | cons first others =>
          have noSign : first ≠ '-' := by
            rintro rfl
            have isDigit := digits '-' (by simp [whole])
            cases isDigit
          rw [whole] at read
          exact (readNumber.eq_2 _ (by simp [noSign])).trans read

/-- Numbers start with a sign or a digit. -/
def StartsNumber (first : Char) : Prop := first = '-' ∨ first.isDigit = true

namespace StartsNumber

variable {first : Char}

theorem ne (starts : StartsNumber first) {other : Char} (noSign : other ≠ '-')
    (noDigit : other.isDigit = false) : first ≠ other := by
  rintro rfl
  rcases starts with sign | digit
  · exact noSign sign
  · rw [noDigit] at digit
    cases digit

theorem isBlank_eq_false (starts : StartsNumber first) : isBlank first = false := by
  simp only [isBlank, Bool.or_eq_false_iff, beq_eq_false_iff_ne]
  exact ⟨⟨⟨starts.ne (by decide) (by decide), starts.ne (by decide) (by decide)⟩,
    starts.ne (by decide) (by decide)⟩, starts.ne (by decide) (by decide)⟩

end StartsNumber

theorem writeNumber_starts {literal : JsonNumber}
    (wellFormed : literal.WellFormed) (rest : List Char) :
    ∃ first others, writeNumber literal rest = first :: others ∧
      StartsNumber first := by
  rw [writeNumber_eq]
  cases literal.negative with
  | true => exact ⟨'-', _, rfl, .inl rfl⟩
  | false =>
      obtain ⟨filled, digits⟩ := wellFormed.whole
      cases whole : literal.whole with
      | nil => exact absurd whole filled
      | cons first others =>
          exact ⟨first, _, rfl, .inr (digits first (by simp [whole]))⟩

end Json

end DiagramEnergy
