import TrafficPolicy.Unicode.Letter
import TrafficPolicy.Unicode.Mark
import TrafficPolicy.Unicode.Script
import TrafficPolicy.Unicode.Symbol

/-!
# Classes for breaking a text

A text is broken into what readers take for characters, into words and into sentences. For each of the
three every character has a class; most classes follow from other properties.
-/

namespace TrafficPolicy.Unicode

/-! ## What readers take for characters -/

def prependSet : CharSet :=
  prependedMarkSet.union (rangesOf ["D4E 111C2-111C3 113D1 1193F 11941 11A3A 11A84-11A89 11D46 11F02"])

def controlSet : CharSet :=
  (.unionAll [ofCategories ["Zl", "Zp", "Cc", "Cf"], (ofCategories ["Cn"]).inter defaultIgnorableSet] :
    CharSet).diff
      (.unionAll [rangesOf ["A D 200D"], prependedMarkSet, graphemeExtendSet])

/-- Spacing marks that do not go with the letter before them. -/
def looseMarkSet : CharSet := rangesOf
  [ "102B-102C 1038 1062-1064 1067-106D 1083 1087-108C 108F 109A-109C 1A61 1A63-1A64 AA7B AA7D",
    "11720-11721" ]

/-- Marks beside a letter that go with it. -/
def spacingMarkSet : CharSet :=
  ((ofCategories ["Mc"]).diff (graphemeExtendSet.union looseMarkSet)).union (rangesOf ["E33 EB3"])

/-- The Korean syllables without a consonant at their end, of which every 28th is one. -/
def openSyllableSet : CharSet :=
  .ofRanges ((List.range 399).map fun i => (0xAC00 + 28 * i, 0xAC00 + 28 * i))

def graphemeBreakSet? (name : String) : Option CharSet :=
  match name with
  | "cr" => some (rangesOf ["D"])
  | "lf" => some (rangesOf ["A"])
  | "cn" | "control" => some controlSet
  | "ex" | "extend" => some (graphemeExtendSet.union emojiModifierSet)
  | "pp" | "prepend" => some prependSet
  | "sm" | "spacingmark" => some spacingMarkSet
  | "zwj" => some (rangesOf ["200D"])
  | "ri" | "regionalindicator" => some regionalIndicatorSet
  | "l" => some (rangesOf ["1100-115F A960-A97C"])
  | "v" => some (rangesOf ["1160-11A7 D7B0-D7C6 16D63 16D67-16D6A"])
  | "t" => some (rangesOf ["11A8-11FF D7CB-D7FB"])
  | "lv" => some openSyllableSet
  | "lvt" => some ((rangesOf ["AC00-D7A3"]).diff openSyllableSet)
  | _ => none

/-! ## Sentences -/

def extendSet : CharSet :=
  .unionAll [graphemeExtendSet, ofCategories ["Mc"], rangesOf ["200D"]]

def numericSet : CharSet :=
  (ofCategories ["Nd"]).union (rangesOf ["600-605 66B-66C 6DD 890-891 8E2 19DA 110BD 110CD"])

/-- Letters of a script whose capitals do not begin sentences. -/
def caselessUseSet : CharSet := rangesOf
  ["10D0-10FA 10FD-10FF 1C90-1CBA 1CBD-1CBF"]

/-- Lower case letters that do not begin sentences. -/
def sentenceLowerSet : CharSet := lowercaseSet.diff (extendSet.union caselessUseSet)

def sentenceUpperSet : CharSet := (uppercaseSet.union (ofCategories ["Lt"])).diff caselessUseSet

/-- The full stops that also stand inside of words and numbers. -/
def fullStopSet : CharSet := rangesOf ["2E 2024 FE52 FF0E"]

def sentenceBreakSet? (name : String) : Option CharSet :=
  match name with
  | "cr" => some (rangesOf ["D"])
  | "lf" => some (rangesOf ["A"])
  | "ex" | "extend" => some extendSet
  | "se" | "sep" => some (rangesOf ["85 2028-2029"])
  | "fo" | "format" => some ((ofCategories ["Cf"]).diff (extendSet.union numericSet))
  | "sp" => some (whiteSpaceSet.diff (rangesOf ["A D 85 2028-2029"]))
  | "lo" | "lower" => some sentenceLowerSet
  | "up" | "upper" => some sentenceUpperSet
  | "le" | "oletter" =>
    some ((alphabeticSet.union (rangesOf ["5F3"])).diff
      (.unionAll [extendSet, sentenceLowerSet, sentenceUpperSet]))
  | "nu" | "numeric" => some numericSet
  | "at" | "aterm" => some fullStopSet
  | "st" | "sterm" => some (sentenceTerminalSet.diff fullStopSet)
  | "sc" | "scontinue" =>
    some (rangesOf
      [ "2C-2D 3A-3B 37E 55D 60C-60D 7F8 1802 1808 2013-2014 3001 FE10-FE11 FE13-FE14 FE31-FE32",
        "FE50-FE51 FE54-FE55 FE58 FE63 FF0C-FF0D FF1A-FF1B FF64" ])
  | "cl" | "close" =>
    some ((.unionAll [ofCategories ["Ps", "Pe", "Pi", "Pf"], quotationMarkSet,
      rangesOf ["275B-2760 2E00-2E01 2E06-2E08 2E0B 1F676-1F678"]] : CharSet).diff (rangesOf ["FF02 FF07"]))
  | _ => none

/-! ## Words -/

/-- Letters of scripts that put no blanks between words. -/
def unspacedLetterSet : CharSet := rangesOf
  [ "E01-E30 E32-E33 E40-E46 E81-E82 E84 E86-E8A E8C-EA3 EA5 EA7-EB0 EB2-EB3 EBD EC0-EC4 EC6",
    "EDC-EDF 1000-102A 103F 1050-1055 105A-105D 1061 1065-1066 106E-1070 1075-1081 108E 1780-17B3",
    "17D7 17DC 1950-196D 1970-1974 1980-19AB 19B0-19C9 1A20-1A54 1AA7 A9E0-A9E4 A9E6-A9EF",
    "A9FA-A9FE AA60-AA76 AA7A AA7E-AAAF AAB1 AAB5-AAB6 AAB9-AABD AAC0 AAC2 AADB-AADD 11700-1171A",
    "11740-11746" ]

def katakanaSet : CharSet :=
  (ofRuns scriptRuns ["Kana"]).union (rangesOf ["3031-3035 309B-309C 30A0 30FC FF70"])

def hebrewLetterSet : CharSet :=
  (ofRuns scriptRuns ["Hebr"]).inter (ofCategories ["Lo"])

def wordExtendSet : CharSet :=
  (extendSet.diff (rangesOf ["200D"])).union emojiModifierSet

/-- Symbols and punctuation that stand in words like letters. -/
def wordSymbolSet : CharSet := rangesOf
  [ "B8 2C2-2C5 2D2-2D7 2DE-2DF 2E5-2EB 2ED 2EF-2FF 55A-55C 55E 58A 5F3 70F A708-A716 A720-A721",
    "A789-A78A AB5B" ]

def wordBreakSet? (name : String) : Option CharSet :=
  match name with
  | "cr" => some (rangesOf ["D"])
  | "lf" => some (rangesOf ["A"])
  | "nl" | "newline" => some (rangesOf ["B-C 85 2028-2029"])
  | "zwj" => some (rangesOf ["200D"])
  | "ri" | "regionalindicator" => some regionalIndicatorSet
  | "extend" => some wordExtendSet
  | "fo" | "format" =>
    some ((ofCategories ["Cf"]).diff (.unionAll [wordExtendSet, prependedMarkSet, rangesOf ["200B 200D"]]))
  | "ka" | "katakana" => some katakanaSet
  | "hl" | "hebrewletter" => some hebrewLetterSet
  | "le" | "aletter" =>
    some ((alphabeticSet.diff (.unionAll [ideographicSet, katakanaSet, hebrewLetterSet, wordExtendSet,
      ofRuns scriptRuns ["Hira"], unspacedLetterSet])).union wordSymbolSet)
  | "sq" | "singlequote" => some (rangesOf ["27"])
  | "dq" | "doublequote" => some (rangesOf ["22"])
  | "mb" | "midnumlet" => some (rangesOf ["2E 2018-2019 2024 FE52 FF07 FF0E"])
  | "ml" | "midletter" => some (rangesOf ["3A B7 387 55F 5F4 2027 FE13 FE55 FF1A"])
  | "mn" | "midnum" =>
    some (rangesOf
      ["2C 3B 37E 589 60C-60D 66C 7F8 2044 FE10 FE14 FE50 FE54 FF0C FF1B"])
  | "nu" | "numeric" => some (numericSet.diff (rangesOf ["66C"]))
  | "ex" | "extendnumlet" => some (rangesOf ["5F 202F 203F-2040 2054 FE33-FE34 FE4D-FE4F FF3F"])
  | "wsegspace" => some (rangesOf ["20 1680 2000-2006 2008-200A 205F 3000"])
  | _ => none

end TrafficPolicy.Unicode
