import DiagramEnergy.Text.Extending
import DiagramEnergy.Text.Ignorable
import DiagramEnergy.Text.Unprintable

/-!
# Quoted text

A quoted text stands between double quotes.  Inside, the quote, the backslash
and four controls have escapes of two characters; every other character that
would not be seen by itself is written as its code point.
-/

namespace DiagramEnergy.Text

def inRanges (ranges : List (Nat × Nat)) (code : Nat) : Bool :=
  ranges.any fun range => decide (range.1 ≤ code ∧ code ≤ range.2)

/-- Whether a character can be seen by itself. -/
def isVisible (char : Char) : Bool :=
  if char.toNat < 0x20 then false
  else if char.toNat < 0x7f then true
  else
    !inRanges unprintableRanges char.toNat && !inRanges extendingRanges char.toNat &&
      !inRanges ignorableRanges char.toNat

def codePoint (char : Char) : List Char :=
  ['\\', 'u', '\x7b'] ++ Nat.toDigits 16 char.toNat ++ ['\x7d']

def quoteChar (char : Char) : List Char :=
  if char = '"' then ['\\', '"']
  else if char = '\\' then ['\\', '\\']
  else if char = '\n' then ['\\', 'n']
  else if char = '\t' then ['\\', 't']
  else if char = '\r' then ['\\', 'r']
  else if char = '\x00' then ['\\', '0']
  else if isVisible char then [char]
  else codePoint char

def quoted (text : String) : String :=
  String.ofList ('"' :: text.toList.flatMap quoteChar ++ ['"'])

end DiagramEnergy.Text
