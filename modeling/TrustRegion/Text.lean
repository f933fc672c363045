import TrustRegion.Text.CaseTable

/-!
# Texts

Texts without white space at their ends, and texts in lower case.

In lower case every letter is replaced by its lower-case form.  That form depends on one letter only,
with one exception: a capital sigma at the end of a word becomes the final small sigma.  It is at the
end of a word if the last letter before it has a case and the first letter after it has none, where
characters that are case-ignorable are passed over.
-/

namespace TrustRegion

namespace Text

/-! ## White space -/

/-- White space: the controls from tab to carriage return, the spaces, the two separators of lines and
paragraphs, and the next-line control. -/
def isBlank (c : Char) : Bool :=
  let n := c.toNat
  (0x9 ≤ n && n ≤ 0xD) || n = 0x20 || n = 0x85 || n = 0xA0 || n = 0x1680 ||
    (0x2000 ≤ n && n ≤ 0x200A) || n = 0x2028 || n = 0x2029 || n = 0x202F || n = 0x205F || n = 0x3000

/-- A text without blank characters at its front. -/
def dropBlank (text : List Char) : List Char := text.dropWhile isBlank

/-- A text without blank characters at either end. -/
def trim (text : String) : String :=
  String.ofList (dropBlank (dropBlank text.toList).reverse).reverse

/-! ## Lower case -/

/-- The lower-case form of a letter taken by itself.  Only the capital `I` with a dot needs two
characters. -/
def lowerChar (c : Char) : List Char :=
  if c.toNat = 0x130 then ['i', Char.ofNat 0x307]
  else
    match lowercaseRuns.find? (·.holds c.toNat) with
    | some r => [Char.ofNat (c.toNat + r.shift).toNat]
    | none => [c]

/-- Does a letter with a case come next, once all ignorable characters are passed over? -/
def letterNext (text : List Char) : Bool :=
  match text.dropWhile fun c => CodeRange.anyHolds caseIgnorable c.toNat with
  | c :: _ => CodeRange.anyHolds cased c.toNat
  | [] => false

/-- The small sigma between two parts of a text, the part before it given backwards. -/
def smallSigma (before after : List Char) : Char :=
  if letterNext before && !letterNext after then 'ς' else 'σ'

/-- A text in lower case, after a part of it given backwards. -/
def lowerAfter : List Char → List Char → List Char
  | _, [] => []
  | before, c :: rest =>
    (if c = 'Σ' then [smallSigma before rest] else lowerChar c) ++ lowerAfter (c :: before) rest

/-- A text in lower case. -/
def lower (text : String) : String := String.ofList (lowerAfter [] text.toList)

end Text

end TrustRegion
