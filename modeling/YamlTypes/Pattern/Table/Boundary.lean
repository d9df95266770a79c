/-!
What the classes of characters at the boundaries of graphemes, words and
sentences do not share with other properties, as ranges in base 36: the gap
before each range and the characters that it has besides its first.
-/

set_option autoImplicit false

namespace YamlTypes.Pattern.Table

def graphemePrepended : String :=
  "2mm 0 1fg3 1 el 0 12l 0 1 0 6w 0 21 5 jg 0 cb 0"

def graphemeSpacing : String :=
  "36z 1 b 0 15 2 2 6 l 0 3 5 2 0 a 2 1xg 0 1 1 sgm 0 1 0 lgi 1"

def wordLetters : String :=
  "54 0 eh 3 c 5 6 1 5 6 1 0 1 g gq 2 1 0 17 0 2w 0 7v 0 vlk e 9 1 2v 1 r4 0"

def complexContext : String :=
  "2rl 1b 1 1 c 6 1m 1 1 0 1 4 1 n 1 0 1 9 1 1 9 0 2 4 1 0 l 3 80 16 k 0 g 5 4 3 3 0 3 1 7 2 4 c
    c 0 1dd 1f z 0 4 0 ab t 2 4 b 17 4 p 2e 1g 2a 0 sag 4 1 9 a 4 2p m 3 0 3 1d 1 0 3 1 2 4 2 0
    1 0 o 2 lcy q 11 6"

/-- The characters after which a sentence goes on. -/
def sentenceContinuing : String :=
  "18 1 c 1 n6 0 da 0 4u 1 dm 0 361 0 5 0 1l6 1 358 0 14pa 1 1 1 s 1 t 1 2 1 2 0 a 0 4o 1 c 1 20
    0"

/-- The characters that close or quote in sentences and have no category that says so. -/
def sentenceQuotes : String :=
  "7rv 5 1b3 1 4 2 2 0 2i5m 2"

end YamlTypes.Pattern.Table
