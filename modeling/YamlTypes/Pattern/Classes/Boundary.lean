import YamlTypes.Pattern.Classes.Property
import YamlTypes.Pattern.Classes.Script
import YamlTypes.Pattern.Table.Boundary

/-!
Classes of characters by what they do at the boundaries of graphemes, words and
sentences.
-/

set_option autoImplicit false

namespace YamlTypes.Pattern.Classes

open CharSet Table

def carriageReturn : CharSet := ⟨[(13, 13)]⟩

def lineFeed : CharSet := ⟨[(10, 10)]⟩

def joiner : CharSet := ⟨[(0x200D, 0x200D)]⟩

def concatenationMark : CharSet := tabled "prependedconcatenationmark"

/-! ## Graphemes -/

def graphemeExtending : CharSet := graphemeExtend.union emojiModifier

def graphemeControl : CharSet :=
  (unions [anyOf ["zl", "zp", "cc", "cf"], unassigned.inter defaultIgnorable]).diff
    (unions [carriageReturn, lineFeed, joinControl, concatenationMark, graphemeExtending])

def spacingMark : CharSet :=
  ((category "mc").union ⟨[(0xE33, 0xE33), (0xEB3, 0xEB3)]⟩).diff
    (graphemeExtending.union (ofTable graphemeSpacing))

/-- The syllables of a leading consonant and a vowel, of which every one is followed by 27 that have
a consonant at their end. -/
def openSyllables : CharSet :=
  ⟨(List.range 399).map fun n => (0xAC00 + 28 * n, 0xAC00 + 28 * n)⟩

def closedSyllables : CharSet := (CharSet.mk [(0xAC00, 0xD7A3)]).diff openSyllables

def graphemeBoundary? : String → Option CharSet
  | "cn" | "control" => some graphemeControl
  | "cr" => some carriageReturn
  | "ex" | "extend" => some graphemeExtending
  | "l" => some ⟨[(0x1100, 0x115F), (0xA960, 0xA97C)]⟩
  | "lf" => some lineFeed
  | "lv" => some openSyllables
  | "lvt" => some closedSyllables
  | "pp" | "prepend" => some (concatenationMark.union (ofTable graphemePrepended))
  | "ri" | "regionalindicator" => some regionalIndicator
  | "sm" | "spacingmark" => some spacingMark
  | "t" => some ⟨[(0x11A8, 0x11FF), (0xD7CB, 0xD7FB)]⟩
  | "v" => some ⟨[(0x1160, 0x11A7), (0xD7B0, 0xD7C6), (0x16D63, 0x16D63), (0x16D67, 0x16D6A)]⟩
  | "zwj" => some joiner
  | _ => none

/-! ## Words -/

def wordExtend : CharSet :=
  (unions [graphemeExtend, category "mc", emojiModifier]).diff joiner

def wordNumeric : CharSet :=
  (unions [digits, ⟨[(0x66B, 0x66B), (0x19DA, 0x19DA)]⟩, concatenationMark]).diff
    ⟨[(0x70F, 0x70F)]⟩

def wordFormat : CharSet :=
  (category "cf").diff (unions [⟨[(0x200B, 0x200D)]⟩, wordExtend, concatenationMark])

def wordKatakana : CharSet :=
  ((script? "kana").getD .empty).union
    ⟨[(0x3031, 0x3035), (0x309B, 0x309C), (0x30A0, 0x30A0), (0x30FC, 0x30FC), (0xFF70, 0xFF70)]⟩

def hebrewLetter : CharSet := ((script? "hebr").getD .empty).inter (category "lo")

/-- The letters whose words blanks divide. -/
def wordLetter : CharSet :=
  (alphabetic.union (ofTable wordLetters)).diff
    (unions [tabled "ideographic", wordKatakana, (script? "hira").getD .empty, wordExtend,
      hebrewLetter, ofTable complexContext])

def wordBoundary? : String → Option CharSet
  | "cr" => some carriageReturn
  | "dq" | "doublequote" => some ⟨[(0x22, 0x22)]⟩
  | "ex" | "extendnumlet" =>
    some ⟨[(0x5F, 0x5F), (0x202F, 0x202F), (0x203F, 0x2040), (0x2054, 0x2054), (0xFE33, 0xFE34),
      (0xFE4D, 0xFE4F), (0xFF3F, 0xFF3F)]⟩
  | "extend" => some wordExtend
  | "fo" | "format" => some wordFormat
  | "hl" | "hebrewletter" => some hebrewLetter
  | "ka" | "katakana" => some wordKatakana
  | "le" | "aletter" => some wordLetter
  | "lf" => some lineFeed
  | "mb" | "midnumlet" => some midNumLet
  | "ml" | "midletter" => some midLetter
  | "mn" | "midnum" =>
    some ⟨[(0x2C, 0x2C), (0x3B, 0x3B), (0x37E, 0x37E), (0x589, 0x589), (0x60C, 0x60D),
      (0x66C, 0x66C), (0x7F8, 0x7F8), (0x2044, 0x2044), (0xFE50, 0xFE50), (0xFE54, 0xFE54),
      (0xFF0C, 0xFF0C), (0xFF1B, 0xFF1B)]⟩
  | "nl" | "newline" => some ⟨[(0xB, 0xC), (0x85, 0x85), (0x2028, 0x2029)]⟩
  | "nu" | "numeric" => some wordNumeric
  | "ri" | "regionalindicator" => some regionalIndicator
  | "sq" | "singlequote" => some apostrophe
  | "wsegspace" =>
    some ⟨[(0x20, 0x20), (0x1680, 0x1680), (0x2000, 0x2006), (0x2008, 0x200A), (0x205F, 0x205F),
      (0x3000, 0x3000)]⟩
  | "zwj" => some joiner
  | _ => none

/-! ## Sentences -/

def sentenceExtend : CharSet := unions [graphemeExtend, category "mc", joiner]

def sentenceFormat : CharSet :=
  (category "cf").diff (sentenceExtend.union (concatenationMark.diff ⟨[(0x70F, 0x70F)]⟩))

def sentenceSeparator : CharSet := ⟨[(0x85, 0x85), (0x2028, 0x2029)]⟩

def sentenceLower : CharSet :=
  lowercase.diff (graphemeExtend.union ⟨[(0x10D0, 0x10FA), (0x10FD, 0x10FF)]⟩)

def sentenceUpper : CharSet :=
  (uppercase.union titlecase).diff ⟨[(0x1C90, 0x1CBA), (0x1CBD, 0x1CBF)]⟩

/-- The letters that are neither of lowercase nor of uppercase. -/
def sentenceLetter : CharSet :=
  (alphabetic.union ⟨[(0x5F3, 0x5F3)]⟩).diff
    (unions [sentenceLower, sentenceUpper, sentenceExtend])

/-- The full stops, which end no sentence in numbers and abbreviations. -/
def fullStop : CharSet :=
  ⟨[(0x2E, 0x2E), (0x2024, 0x2024), (0xFE52, 0xFE52), (0xFF0E, 0xFF0E)]⟩

def sentenceClose : CharSet :=
  (unions [anyOf ["ps", "pe", "pi", "pf"], tabled "quotationmark", ofTable sentenceQuotes]).diff
    ⟨[(0xFF02, 0xFF02), (0xFF07, 0xFF07)]⟩

def sentenceBoundary? : String → Option CharSet
  | "at" | "aterm" => some fullStop
  | "cl" | "close" => some sentenceClose
  | "cr" => some carriageReturn
  | "ex" | "extend" => some sentenceExtend
  | "fo" | "format" => some sentenceFormat
  | "le" | "oletter" => some sentenceLetter
  | "lf" => some lineFeed
  | "lo" | "lower" => some sentenceLower
  | "nu" | "numeric" => some (wordNumeric.union ⟨[(0x66C, 0x66C)]⟩)
  | "sc" | "scontinue" => some (ofTable sentenceContinuing)
  | "se" | "sep" => some sentenceSeparator
  | "sp" => some (whiteSpace.diff (unions [sentenceSeparator, carriageReturn, lineFeed]))
  | "st" | "sterm" => some ((tabled "sentenceterminal").diff fullStop)
  | "up" | "upper" => some sentenceUpper
  | _ => none

end YamlTypes.Pattern.Classes
