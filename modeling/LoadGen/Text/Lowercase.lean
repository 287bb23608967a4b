import LoadGen.Text.Lowercase.Table

/-!
# Lowercasing

`lowercase` maps every character to its lowercase form.  Two characters do not go one to one:
the dotted capital `İ` becomes two characters, and a capital sigma becomes `ς` at the end of a
word and `σ` elsewhere.
-/

namespace LoadGen
namespace Text

/-- Whether `c` lies in one of the ranges, ends included. -/
def inRanges (ranges : List (Nat × Nat)) (c : Char) : Bool :=
  ranges.any fun r => r.1 ≤ c.toNat && c.toNat ≤ r.2

def isCased (c : Char) : Bool :=
  inRanges casedRanges c

/-- Whether `c` is skipped when the neighbouring letter of a sigma is sought. -/
def isCaseIgnorable (c : Char) : Bool :=
  inRanges caseIgnorableRanges c

/-- Whether the run moves the code point `n`. -/
def LowercaseRun.covers (r : LowercaseRun) (n : Nat) : Bool :=
  r.first ≤ n && n ≤ r.last && (n - r.first) % r.step == 0

/-- The lowercase form of a character on its own. -/
def lowercaseChar (c : Char) : List Char :=
  -- The dot of the dotted capital stays as a combining mark.
  if c.toNat = 304 then ['i', Char.ofNat 775]
  else match lowercaseRuns.find? (·.covers c.toNat) with
    | some r => [Char.ofNat (Int.toNat (c.toNat + r.shift))]
    | none => [c]

def capitalSigma : Char := Char.ofNat 0x3A3

/-- Whether the first character that is not case-ignorable has a case. -/
def meetsCased (cs : List Char) : Bool :=
  match cs.dropWhile isCaseIgnorable with
  | c :: _ => isCased c
  | [] => false

/-- The lowercase form of a sigma between `before`, nearest character first, and `after`. -/
def lowercaseSigma (before after : List Char) : Char :=
  if meetsCased before && !meetsCased after then Char.ofNat 0x3C2 else Char.ofNat 0x3C3

/-- Lowercases a list of characters that follows `before`, which is given
nearest character first. -/
def lowercaseAfter (before : List Char) : List Char → List Char
  | [] => []
  | c :: rest =>
    (if c = capitalSigma then [lowercaseSigma before rest] else lowercaseChar c) ++
      lowercaseAfter (c :: before) rest

/-- The lowercase form of a text, as characters. -/
def lowercase (cs : List Char) : List Char :=
  lowercaseAfter [] cs

end Text
end LoadGen
