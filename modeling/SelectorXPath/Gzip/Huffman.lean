import SelectorXPath.Gzip.Bits

namespace SelectorXPath

namespace Gzip

abbrev Code := List (List Nat)

def symbolsOfLength (lengths : List Nat) (length : Nat) : List Nat :=
  (lengths.zipIdx.filter fun entry => entry.1 == length).map (·.2)

def longestWord (lengths : List Nat) : Nat := lengths.foldl Nat.max 1

def Code.ofLengths (lengths : List Nat) : Code :=
  (List.range (longestWord lengths)).map fun n => symbolsOfLength lengths (n + 1)

def Code.size (code : Code) : Nat := code.flatten.length

/-- The number of words of the length reached so far that the code leaves free, if it never uses
more than there are. -/
def freeWords : Nat → Code → Option Nat
  | free, [] => some free
  | free, symbols :: deeper =>
    if symbols.length ≤ 2 * free then freeWords (2 * free - symbols.length) deeper else none

def Code.isComplete (code : Code) : Bool := freeWords 1 code == some 0

/-- Reads a symbol, given how far the word read so far lies above the first unassigned word of its
length. -/
def readSymbolFrom : Code → Nat → Reader Nat
  | [], _, _ => .error .corruptStream
  | _ :: _, _, [] => .error .incompleteStream
  | symbols :: deeper, above, bit :: bits =>
    let index := 2 * above + bit.toNat
    match symbols[index]? with
    | some symbol => .ok (symbol, bits)
    | none => readSymbolFrom deeper (index - symbols.length) bits

def Code.read (code : Code) : Reader Nat := readSymbolFrom code 0

theorem readSymbolFrom_length_lt {code : Code} {above symbol : Nat} {bits rest : Bits}
    (h : readSymbolFrom code above bits = .ok (symbol, rest)) : rest.length < bits.length := by
  induction code generalizing above bits with
  | nil => cases h
  | cons symbols deeper ih =>
    cases bits with
    | nil => cases h
    | cons bit bits =>
      simp only [readSymbolFrom] at h
      split at h
      · cases h
        exact Nat.lt_succ_self _
      · exact Nat.lt_succ_of_lt (ih h)

theorem Code.read_length_lt {code : Code} {symbol : Nat} {bits rest : Bits}
    (h : code.read bits = .ok (symbol, rest)) : rest.length < bits.length :=
  readSymbolFrom_length_lt h

end Gzip

end SelectorXPath
