import ContractKit.Text.Normal.Decomposition

/-!
# The normal form of identifiers

Identifiers that look alike are the same identifier: each is brought into the normal form
NFKC of Unicode 14.  Every character is decomposed, the marks after a character are sorted
by their classes, and what can be composed is composed again.
-/

namespace ContractKit.Text

/-! ## Syllables of Hangul -/

def firstSyllable : Nat := 0xac00

def syllableCount : Nat := 11172

def firstLeading : Nat := 0x1100

def firstVowel : Nat := 0x1161

/-- The place before the first trailing consonant. -/
def beforeTrailing : Nat := 0x11a7

def leadingCount : Nat := 19

def vowelCount : Nat := 21

/-- The number of endings of a syllable, the empty one included. -/
def trailingCount : Nat := 28

def syllableLetters? (n : Nat) : Option (List Nat) :=
  if firstSyllable ≤ n ∧ n < firstSyllable + syllableCount then
    let i := n - firstSyllable
    let letters := [firstLeading + i / (vowelCount * trailingCount),
      firstVowel + i / trailingCount % vowelCount]
    let ending := i % trailingCount
    some (if ending = 0 then letters else letters ++ [beforeTrailing + ending])
  else none

/-- The syllable that a leading consonant and a vowel, or an open syllable and a trailing
consonant, make. -/
def syllable? (a b : Nat) : Option Nat :=
  if firstLeading ≤ a ∧ a < firstLeading + leadingCount then
    if firstVowel ≤ b ∧ b < firstVowel + vowelCount then
      some (firstSyllable +
        ((a - firstLeading) * vowelCount + (b - firstVowel)) * trailingCount)
    else none
  else if firstSyllable ≤ a ∧ a < firstSyllable + syllableCount ∧
      (a - firstSyllable) % trailingCount = 0 then
    if beforeTrailing < b ∧ b < beforeTrailing + trailingCount then
      some (a + (b - beforeTrailing))
    else none
  else none

/-! ## The three steps -/

/-- The decomposition of a code point; composites are nested at most three deep. -/
def decompose (n : Nat) : List Nat :=
  match syllableLetters? n with
  | some letters => letters
  | none => decomposeParts 3 n

/-- The decomposition of every code point. -/
def decomposed (s : List Nat) : List Nat := s.flatMap decompose

/-- Puts a code point after others, which stand last first: a mark goes before marks of
higher classes. -/
def insertMark (n : Nat) : List Nat → List Nat
  | [] => [n]
  | m :: rest =>
    if combiningClass n ≠ 0 ∧ combiningClass n < combiningClass m then m :: insertMark n rest
    else n :: m :: rest

/-- The code points with the marks after each character sorted by their classes. -/
def sortMarks (s : List Nat) : List Nat :=
  (s.foldl (fun done n => insertMark n done) []).reverse

/-- What composing has reached: what is finished, the character that marks may still join,
and the marks after it that did not; both lists last first. -/
structure Composing where
  finished : List Nat := []
  base : Option Nat := none
  marks : List Nat := []

/-- The code point that a pair makes. -/
def pair? (a b : Nat) : Option Nat :=
  match syllable? a b with
  | some whole => some whole
  | none => composite? a b

/-- Whether a code point can still reach the base: no mark of its class or a higher one
stands between them. -/
def Composing.isFree (c : Composing) (n : Nat) : Bool :=
  match c.marks with
  | [] => true
  | m :: _ => decide (combiningClass m < combiningClass n)

/-- Takes one code point. -/
def Composing.step (c : Composing) (n : Nat) : Composing :=
  let start (c : Composing) : Composing :=
    if combiningClass n = 0 then ⟨c.marks ++ c.base.toList ++ c.finished, some n, []⟩
    else match c.base with
      | some _ => { c with marks := n :: c.marks }
      | none => { c with finished := n :: c.finished }
  match c.base with
  | none => start c
  | some b =>
    match if c.isFree n then pair? b n else none with
    | some whole => { c with base := some whole }
    | none => start c

/-- The code points with everything composed that can be. -/
def composed (s : List Nat) : List Nat :=
  let c := s.foldl Composing.step {}
  (c.marks ++ c.base.toList ++ c.finished).reverse

def normalForm (cs : List Char) : List Char :=
  if cs.all fun c => c.toNat < 128 then cs
  else (composed (sortMarks (decomposed (cs.map Char.toNat)))).map Char.ofNat

end ContractKit.Text
