import NostrWot.Data.CodeUnits

namespace NostrWot.Data.Units

/-! # White space around a text -/

/-- White space and line terminators. -/
def isSpace (unit : UInt16) : Bool :=
  (9 ≤ unit && unit ≤ 13) || unit = 0x20 || unit = 0xA0 || unit = 0x1680 ||
    (0x2000 ≤ unit && unit ≤ 0x200A) || unit = 0x2028 || unit = 0x2029 || unit = 0x202F ||
    unit = 0x205F || unit = 0x3000 || unit = 0xFEFF

def trimStart (text : Units) : Units := text.dropWhile isSpace

def trim (text : Units) : Units := (trimStart text).rdropWhile isSpace

end NostrWot.Data.Units
