/-!
# Random draws

A generator steps through all 64-bit states and scrambles each of them into
one draw.  Draws that would be unfair are made again; as the states only repeat
after `2 ^ 64` steps, that many attempts always contain an acceptable one.
-/

namespace DiagramEnergy

structure Generator where
  state : UInt64
  deriving DecidableEq

/-- Actions that draw from a generator. -/
abbrev Random := StateM Generator

namespace Random

/-- The next scrambled state. -/
def word : Random UInt64 := fun generator =>
  let state := generator.state + 0x2d358dccaa6c78a5
  let product := state.toNat * (state ^^^ 0x8bb84b93962eacc9).toNat
  (UInt64.ofNat product ^^^ UInt64.ofNat (product / Nat.pow 2 64), ⟨state⟩)

/-- Draws until a word is acceptable, at most `attempts + 1` times. -/
def wordSuchThat (acceptable : UInt64 → Bool) : Nat → Random UInt64
  | 0 => word
  | attempts + 1 => do
    let drawn ← word
    if acceptable drawn then return drawn
    wordSuchThat acceptable attempts

/-- The upper 63 bits of a word as a fraction of one. -/
def fraction (drawn : UInt64) : Float := (drawn >>> 1).toFloat / 9223372036854775808

/-- A float from zero up to but not including one. -/
def unit : Random Float :=
  fraction <$> wordSuchThat (fun drawn => fraction drawn < 1) (Nat.pow 2 64)

/-- A number below `count`.  The words that would favour some numbers are the
ones whose product with `count` falls short of its remainder. -/
def below (count : Nat) : Random Nat := do
  let remainder := (Nat.pow 2 64 - count) % count
  let drawn ← wordSuchThat (fun drawn => drawn.toNat * count % Nat.pow 2 64 ≥ remainder) (Nat.pow 2 64)
  return drawn.toNat * count / Nat.pow 2 64

def bool : Random Bool := do
  let drawn ← word
  return drawn % 2 == 0

/-- A float between `low` and `high`. -/
def between (low high : Float) : Random Float := do
  let share ← unit
  return low + (high - low) * share

end Random

end DiagramEnergy
