import TrafficPolicy.Unicode.Age
import TrafficPolicy.Unicode.Break
import TrafficPolicy.Unicode.Identifier

/-!
# Properties by name

A property of characters is asked for by its name, as in `Lu`, `Greek` or `alphabetic`, or by a name and
a value, as in `sc=Greek`. Letter case, blanks, hyphens and underscores in names do not count.
-/

namespace TrafficPolicy.Unicode

/-- A name in the form in which it is looked up: ASCII characters alone, in lower case, without blanks,
hyphens and underscores. A leading `is` is left out, unless a `c` is all that would be left. -/
def plainName (name : String) : String :=
  let cs := name.toList
  let short := match cs with
    | i :: s :: rest => if i.toLower = 'i' && s.toLower = 's' then some rest else none
    | _ => none
  let plain (cs : List Char) : String :=
    let counts (c : Char) : Bool := c.toNat < 0x80 && c != ' ' && c != '_' && c != '-'
    String.ofList ((cs.filter counts).map Char.toLower)
  match short with
  | none => plain cs
  | some rest => if plain rest == "c" then "isc" else plain rest

def booleanSet? (name : String) : Option CharSet :=
  match name with
  | "ahex" | "asciihexdigit" => some asciiHexDigitSet
  | "alpha" | "alphabetic" => some alphabeticSet
  | "bidic" | "bidicontrol" => some bidiControlSet
  | "cased" => some casedSet
  | "ci" | "caseignorable" => some caseIgnorableSet
  | "cwcf" | "changeswhencasefolded" => some casefoldedSet
  | "cwcm" | "changeswhencasemapped" => some casemappedSet
  | "cwl" | "changeswhenlowercased" => some lowercasedSet
  | "cwt" | "changeswhentitlecased" => some titlecasedSet
  | "cwu" | "changeswhenuppercased" => some uppercasedSet
  | "dash" => some dashSet
  | "dep" | "deprecated" => some deprecatedSet
  | "di" | "defaultignorablecodepoint" => some defaultIgnorableSet
  | "dia" | "diacritic" => some diacriticSet
  | "ebase" | "emojimodifierbase" => some emojiModifierBaseSet
  | "ecomp" | "emojicomponent" => some emojiComponentSet
  | "emod" | "emojimodifier" => some emojiModifierSet
  | "emoji" => some emojiSet
  | "epres" | "emojipresentation" => some emojiPresentationSet
  | "ext" | "extender" => some extenderSet
  | "extpict" | "extendedpictographic" => some extendedPictographicSet
  | "grbase" | "graphemebase" => some graphemeBaseSet
  | "grext" | "graphemeextend" => some graphemeExtendSet
  | "grlink" | "graphemelink" => some graphemeLinkSet
  | "hex" | "hexdigit" => some hexDigitSet
  | "hyphen" => some hyphenSet
  | "idc" | "idcontinue" => some idContinueSet
  | "idcompatmathcontinue" => some mathIdContinueSet
  | "idcompatmathstart" => some mathIdStartSet
  | "ideo" | "ideographic" => some ideographicSet
  | "ids" | "idstart" => some idStartSet
  | "idsb" | "idsbinaryoperator" => some idsBinarySet
  | "idst" | "idstrinaryoperator" => some idsTrinarySet
  | "idsu" | "idsunaryoperator" => some idsUnarySet
  | "joinc" | "joincontrol" => some joinControlSet
  | "loe" | "logicalorderexception" => some logicalOrderExceptionSet
  | "lower" | "lowercase" => some lowercaseSet
  | "math" => some mathSet
  | "mcm" | "modifiercombiningmark" => some modifierCombiningMarkSet
  | "nchar" | "noncharactercodepoint" => some noncharacterSet
  | "oalpha" | "otheralphabetic" => some otherAlphabeticSet
  | "odi" | "otherdefaultignorablecodepoint" => some otherDefaultIgnorableSet
  | "ogrext" | "othergraphemeextend" => some otherGraphemeExtendSet
  | "oidc" | "otheridcontinue" => some otherIdContinueSet
  | "oids" | "otheridstart" => some otherIdStartSet
  | "olower" | "otherlowercase" => some otherLowercaseSet
  | "omath" | "othermath" => some otherMathSet
  | "oupper" | "otheruppercase" => some otherUppercaseSet
  | "patsyn" | "patternsyntax" => some patternSyntaxSet
  | "patws" | "patternwhitespace" => some patternWhiteSpaceSet
  | "pcm" | "prependedconcatenationmark" => some prependedMarkSet
  | "qmark" | "quotationmark" => some quotationMarkSet
  | "radical" => some radicalSet
  | "ri" | "regionalindicator" => some regionalIndicatorSet
  | "sd" | "softdotted" => some softDottedSet
  | "space" | "whitespace" | "wspace" => some whiteSpaceSet
  | "sterm" | "sentenceterminal" => some sentenceTerminalSet
  | "term" | "terminalpunctuation" => some terminalPunctuationSet
  | "uideo" | "unifiedideograph" => some unifiedIdeographSet
  | "upper" | "uppercase" => some uppercaseSet
  | "vs" | "variationselector" => some variationSelectorSet
  | "xidc" | "xidcontinue" => some xidContinueSet
  | "xids" | "xidstart" => some xidStartSet
  | _ => none

/-- The characters with a property: one that holds or not, a general category or a script. -/
def propertySet? (name : String) : Option CharSet :=
  let name := plainName name
  booleanSet? name <|> categorySet? name <|> scriptSet? name

def valueSet? (property value : String) : Option CharSet :=
  let value := plainName value
  match plainName property with
  | "gc" | "generalcategory" => categorySet? value
  | "sc" | "script" => scriptSet? value
  | "scx" | "scriptextensions" => scriptExtensionSet? value
  | "age" => ageSet? value
  | "gcb" | "graphemeclusterbreak" => graphemeBreakSet? value
  | "wb" | "wordbreak" => wordBreakSet? value
  | "sb" | "sentencebreak" => sentenceBreakSet? value
  | _ => none

end TrafficPolicy.Unicode
