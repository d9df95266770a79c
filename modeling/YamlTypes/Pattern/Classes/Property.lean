import YamlTypes.Pattern.Classes.Category
import YamlTypes.Pattern.Table.Property

/-!
Properties that a character has or lacks.

Some have a table of their own. The others follow from categories, from tables
of exceptions and from each other.
-/

set_option autoImplicit false

namespace YamlTypes.Pattern.Classes

open CharSet Table

def tabled? (name : String) : Option CharSet :=
  (properties.find? fun entry => entry.1.contains name).map fun entry => ofTable entry.2

def tabled (name : String) : CharSet := (tabled? name).getD .empty

def alphabetic : CharSet := unions [letters, category "nl", tabled "otheralphabetic"]

def lowercase : CharSet := (category "ll").union (tabled "otherlowercase")

def uppercase : CharSet := (category "lu").union (tabled "otheruppercase")

def titlecase : CharSet := category "lt"

def cased : CharSet := unions [lowercase, uppercase, titlecase]

def joinControl : CharSet := ⟨[(0x200C, 0x200D)]⟩

def wordChars : CharSet :=
  unions [alphabetic, categoryGroup 'm', digits, category "pc", joinControl]

def changedByLowercase : CharSet := (uppercase.union titlecase).diff (ofTable withoutLowercase)

def changedByUppercase : CharSet := (lowercase.union titlecase).diff (ofTable withoutUppercase)

/-- Titlecase is the same as uppercase but for the letters that are two in one, and there is none of
Georgian letters. -/
def changedByTitlecase : CharSet :=
  (changedByUppercase.diff (titlecase.union ⟨[(0x10D0, 0x10FA), (0x10FD, 0x10FF)]⟩)).union
    ⟨[(0x1C4, 0x1C4), (0x1C7, 0x1C7), (0x1CA, 0x1CA), (0x1F1, 0x1F1)]⟩

/-- Case folding leads to lowercase, but for Cherokee letters. -/
def changedByFolding : CharSet :=
  (changedByLowercase.diff ⟨[(0x13A0, 0x13F5)]⟩).union (ofTable foldedOnly)

/-- The marks that stand inside words between letters. -/
def midLetter : CharSet :=
  ⟨[(0x3A, 0x3A), (0xB7, 0xB7), (0x387, 0x387), (0x55F, 0x55F), (0x5F4, 0x5F4), (0x2027, 0x2027),
    (0xFE13, 0xFE13), (0xFE55, 0xFE55), (0xFF1A, 0xFF1A)]⟩

/-- The marks that stand inside words between letters and inside numbers between digits. -/
def midNumLet : CharSet :=
  ⟨[(0x2E, 0x2E), (0x2018, 0x2019), (0x2024, 0x2024), (0xFE52, 0xFE52), (0xFF07, 0xFF07),
    (0xFF0E, 0xFF0E)]⟩

def apostrophe : CharSet := ⟨[(0x27, 0x27)]⟩

def caseIgnorable : CharSet :=
  unions [anyOf ["mn", "me", "cf", "lm", "sk"], midLetter, midNumLet, apostrophe]

def graphemeExtend : CharSet := (anyOf ["me", "mn"]).union (tabled "othergraphemeextend")

def graphemeBase : CharSet :=
  (unions [anyOf ["cc", "cf", "co", "zl", "zp"], unassigned, graphemeExtend]).complement

def defaultIgnorable : CharSet :=
  (unions [category "cf", tabled "odi", tabled "variationselector"]).diff
    (unions [whiteSpace, tabled "pcm", ⟨[(0xFFF9, 0xFFFB), (0x13430, 0x13440)]⟩])

def emojiModifier : CharSet := ⟨[(0x1F3FB, 0x1F3FF)]⟩

def regionalIndicator : CharSet := ⟨[(0x1F1E6, 0x1F1FF)]⟩

/-- The characters that mean something in patterns. -/
def patternChars : CharSet := (tabled "patternsyntax").union (tabled "patternwhitespace")

def idStart : CharSet := (unions [letters, category "nl", tabled "otheridstart"]).diff patternChars

def idContinue : CharSet :=
  (unions [idStart, anyOf ["mn", "mc", "nd", "pc"], tabled "otheridcontinue"]).diff patternChars

/-- The characters of identifiers that would not be ones in compatibility form. -/
def unstableId : CharSet :=
  ⟨[(0x37A, 0x37A), (0x309B, 0x309C), (0xFC5E, 0xFC63), (0xFDFA, 0xFDFB), (0xFE70, 0xFE70),
    (0xFE72, 0xFE72), (0xFE74, 0xFE74), (0xFE76, 0xFE76), (0xFE78, 0xFE78), (0xFE7A, 0xFE7A),
    (0xFE7C, 0xFE7C), (0xFE7E, 0xFE7E)]⟩

def xidContinue : CharSet := idContinue.diff unstableId

def xidStart : CharSet :=
  idStart.diff (unstableId.union ⟨[(0xE33, 0xE33), (0xEB3, 0xEB3), (0xFF9E, 0xFF9F)]⟩)

def math : CharSet := (category "sm").union (tabled "othermath")

def derived? : String → Option CharSet
  | "ahex" | "asciihexdigit" => some ⟨[(48, 57), (65, 70), (97, 102)]⟩
  | "alpha" | "alphabetic" => some alphabetic
  | "cased" => some cased
  | "ci" | "caseignorable" => some caseIgnorable
  | "cwcf" | "changeswhencasefolded" => some changedByFolding
  | "cwcm" | "changeswhencasemapped" =>
    some (unions [changedByLowercase, changedByUppercase, changedByTitlecase])
  | "cwl" | "changeswhenlowercased" => some changedByLowercase
  | "cwt" | "changeswhentitlecased" => some changedByTitlecase
  | "cwu" | "changeswhenuppercased" => some changedByUppercase
  | "di" | "defaultignorablecodepoint" => some defaultIgnorable
  | "emod" | "emojimodifier" => some emojiModifier
  | "grbase" | "graphemebase" => some graphemeBase
  | "grext" | "graphemeextend" => some graphemeExtend
  | "idc" | "idcontinue" => some idContinue
  | "ids" | "idstart" => some idStart
  | "joinc" | "joincontrol" => some joinControl
  | "lower" | "lowercase" => some lowercase
  | "math" => some math
  | "ri" | "regionalindicator" => some regionalIndicator
  | "upper" | "uppercase" => some uppercase
  | "wspace" | "space" | "whitespace" => some whiteSpace
  | "xidc" | "xidcontinue" => some xidContinue
  | "xids" | "xidstart" => some xidStart
  | _ => none

def property? (name : String) : Option CharSet := (tabled? name).orElse fun _ => derived? name

end YamlTypes.Pattern.Classes
