import Tint.Text.Basic
import Tint.Rules.LongestFirst
set_option autoImplicit false

/-!
# Opening tests

An opening test tells in one go whether any of several delimiters stands at the front of a
text.  It is made of two machines over the bytes of the UTF-8 form, one that reads forward and
one that reads backward, and there is none when either of them would take more memory than
`OpeningTest.limit`.

A machine for one delimiter has a state for each byte.  A machine for several delimiters shares
what they have in common.  It is a tree: a node stands for what some of the delimiters begin
with, and is given here by the rests of these delimiters.  A node at which a delimiter goes on
has a reader, with an arm for each byte that may follow, and a fork to that reader and to the
end, once for each delimiter that is complete there.

`passes_iff` says that a test looks for the delimiters it was made of, whatever their order.
-/

namespace Tint

namespace OpeningTest

/-! ## The size of a machine -/

/-- Bytes that a state takes, its arms apart. -/
def stateSize : Nat := 32

/-- Bytes of a state that reads one of `n` bytes.  A single arm has room in the state itself. -/
def readerSize (n : Nat) : Nat := if n ≤ 1 then stateSize else stateSize + 8 * n

/-- Bytes of a state that goes on to `n` others without reading. -/
def forkSize (n : Nat) : Nat := stateSize + 4 * n

/-- The bytes that come next in the rests, each once. -/
def nextBytes (rests : List (List UInt8)) : List UInt8 :=
  (rests.filterMap List.head?).eraseDups

/-- What the rests that start with `b` leave after it. -/
def restsAfter (b : UInt8) (rests : List (List UInt8)) : List (List UInt8) :=
  rests.filterMap fun
    | [] => none
    | c :: r => if c = b then some r else none

/-- The nodes that follow a node. -/
def children (rests : List (List UInt8)) : List (List (List UInt8)) :=
  (nextBytes rests).map fun b => restsAfter b rests

/-- Bytes of the states of one node: none, unless a delimiter goes on there. -/
def nodeSize (rests : List (List UInt8)) : Nat :=
  match (nextBytes rests).length with
  | 0 => 0
  | n => readerSize n + forkSize (1 + rests.countP List.isEmpty)

/-- Adds to `size` the bytes of the given nodes and of what follows them, over `depth` levels
of the tree. -/
def addLevels (size : Nat) : Nat → List (List (List UInt8)) → Nat
  | 0, _ => size
  | depth + 1, nodes =>
    addLevels (size + (nodes.map nodeSize).sum) depth (nodes.flatMap children)

/-- Bytes of the states that know the delimiters, the longest of them given first.  A tree has
as many levels as the longest delimiter has bytes, and one state for the end. -/
def bodySize : List (List UInt8) → Nat
  | [] => 0
  | [w] => stateSize * w.length
  | w :: v :: ws => addLevels stateSize w.length [w :: v :: ws]

/-- Bytes of the machine that reads forward.  Around the body it has five states: the entry,
the check that nothing has been read, the two marks around what is found, and the end. -/
def forwardSize (delimiters : List (List UInt8)) : Nat := 5 * stateSize + bodySize delimiters

/-- Bytes of the machine that reads backward.  It may skip bytes first, so around the body it
has a fork of two, a reader of any byte with the state that leads back, the check that nothing
is left, and the end. -/
def backwardSize (delimiters : List (List UInt8)) : Nat :=
  forkSize 2 + (stateSize + 8) + stateSize + 2 * stateSize + bodySize (delimiters.map List.reverse)

/-- Most bytes that a machine may take. -/
def limit : Nat := 10 * 1024 * 1024

/-- There is a test for the delimiters, the longest of them given first.  Delimiters of one
character each are kept as a set of characters, which needs no tree and counts as small. -/
def fits (openers : List Text) : Bool :=
  let words := openers.map Text.bytes
  openers.all (·.length == 1) || (forwardSize words ≤ limit && backwardSize words ≤ limit)

end OpeningTest

/-! ## Tests -/

/-- A test for delimiters: each of them once, longest first by bytes. -/
structure OpeningTest where
  openers : List Text
  deriving DecidableEq, Repr, Inhabited

namespace OpeningTest

/-- The test for the given delimiters, unless it would be too large. -/
def ofDelimiters? (delimiters : List Text) : Option OpeningTest :=
  let openers := longestFirst Text.size delimiters
  if fits openers then some ⟨openers.eraseDups⟩ else none

/-- A delimiter stands at the front of `rest`. -/
def passes (t : OpeningTest) (rest : Text) : Bool := t.openers.any rest.startsWith

/-- A test looks for the delimiters it was made of. -/
theorem passes_iff {delimiters : List Text} {t : OpeningTest}
    (h : ofDelimiters? delimiters = some t) {rest : Text} :
    t.passes rest = true ↔ ∃ d ∈ delimiters, d <+: rest := by
  dsimp only [ofDelimiters?] at h
  split at h
  · cases h
    simp [passes]
  · cases h

end OpeningTest

end Tint
