import TrafficPolicy.Unicode.Letter

/-!
# Identifiers and patterns

Characters that names begin with or go on with, and the characters that are kept for the grammar of
patterns and never stand in names.
-/

namespace TrafficPolicy.Unicode

def patternSyntaxSet : CharSet := rangesOf
  [ "21-2F 3A-40 5B-5E 60 7B-7E A1-A7 A9 AB-AC AE B0-B1 B6 BB BF D7 F7 2010-2027 2030-203E",
    "2041-2053 2055-205E 2190-245F 2500-2775 2794-2BFF 2E00-2E7F 3001-3003 3008-3020 3030",
    "FD3E-FD3F FE45-FE46" ]

def patternWhiteSpaceSet : CharSet := rangesOf ["9-D 20 85 200E-200F 2028-2029"]

/-- Characters that begin names for the sake of older rules. -/
def otherIdStartSet : CharSet := rangesOf ["1885-1886 2118 212E 309B-309C"]

def otherIdContinueSet : CharSet :=
  rangesOf ["B7 387 1369-1371 19DA 200C-200D 30FB FF65"]

def idStartSet : CharSet :=
  ((ofCategories ("Nl" :: letterCategories)).union otherIdStartSet).diff
    (patternSyntaxSet.union patternWhiteSpaceSet)

def idContinueSet : CharSet :=
  .unionAll [idStartSet, ofCategories ["Mn", "Mc", "Nd", "Pc"], otherIdContinueSet]

/-- Characters that begin names, but not once compatible characters are taken for each other. -/
def openIdStartSet : CharSet := rangesOf ["E33 EB3 FF9E-FF9F"]

/-- Characters of names that are none once compatible characters are taken for each other. -/
def openIdSet : CharSet :=
  rangesOf ["37A 309B-309C FC5E-FC63 FDFA-FDFB FE70 FE72 FE74 FE76 FE78 FE7A FE7C FE7E"]

def xidStartSet : CharSet := idStartSet.diff (openIdStartSet.union openIdSet)

def xidContinueSet : CharSet := idContinueSet.diff openIdSet

def mathIdStartSet : CharSet :=
  rangesOf ["2202 2207 221E 1D6C1 1D6DB 1D6FB 1D715 1D735 1D74F 1D76F 1D789 1D7A9 1D7C3"]

def mathIdContinueSet : CharSet :=
  mathIdStartSet.union (rangesOf ["B2-B3 B9 2070 2074-207E 2080-208E"])

end TrafficPolicy.Unicode
