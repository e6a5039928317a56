import MapLoader.Flate.Bits

/-! Canonical prefix codes. A code is given by the length of the code word of each symbol; words
of one length follow each other in the order of their symbols. -/

namespace MapLoader.Flate

structure Huffman where
  /-- The number of words of length 1, 2, up to 15. -/
  counts : List Nat
  /-- The symbols in the order of their words. -/
  symbols : Array Nat

namespace Huffman

def maxLength : Nat := 15

/-- How many words of the greatest length there are. -/
def wholeSpace : Nat := 1 <<< maxLength

/-- What the words of the given counts use up of the space of all words, whose size is
`wholeSpace`. -/
def used (counts : List Nat) : Nat :=
  counts.zipIdx.foldr (fun (n, i) total => n <<< (maxLength - 1 - i) + total) 0

/-- The code with these word lengths; zero means no word. A code of two or more words has to
use up the space exactly. -/
def ofLengths? (lengths : List Nat) : Option Huffman :=
  let ofLength (n : Nat) : List Nat :=
    lengths.zipIdx.filterMap fun (m, s) => if m = n then some s else none
  let groups := (List.range maxLength).map fun i => ofLength (i + 1)
  let counts := groups.map List.length
  if groups.flatten.length ≤ 1 ∨ used counts = wholeSpace then some ⟨counts, groups.flatten.toArray⟩
  else none

/-- Reads one word bit by bit: `first` is the first word of the current length and `index` the
place of its symbol. -/
def readWord (symbols : Array Nat) : (counts : List Nat) → (word first index : Nat) → (b : Bits) →
    Option (Nat × { c : Bits // c.left < b.left })
  | [], _, _, _, _ => none
  | n :: rest, word, first, index, b =>
    match b.bit? with
    | none => none
    | some (v, ⟨c, hc⟩) =>
      let word := word + v
      if word < first + n then
        match symbols[index + (word - first)]? with
        | none => none
        | some s => some (s, ⟨c, hc⟩)
      else
        match readWord symbols rest (2 * word) (2 * (first + n)) (index + n) c with
        | none => none
        | some (s, ⟨d, hd⟩) => some (s, ⟨d, Nat.lt_trans hd hc⟩)

def read? (h : Huffman) (b : Bits) : Option (Nat × { c : Bits // c.left < b.left }) :=
  readWord h.symbols h.counts 0 0 0 b

end Huffman

end MapLoader.Flate
