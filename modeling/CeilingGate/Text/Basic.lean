/-! Characters by their code points, blanks at the ends of texts, and texts as UTF-8 bytes. -/
namespace CeilingGate.Text

/-- Whether a character lies in one of the closed ranges of code points. -/
def inRanges (ranges : List (Nat × Nat)) (c : Char) : Bool :=
  ranges.any fun (low, high) => low ≤ c.toNat && c.toNat ≤ high

/-- The 29 white-space code points. -/
def isBlank (c : Char) : Bool :=
  let n := c.toNat
  (0x09 ≤ n && n ≤ 0x0d) || (0x1c ≤ n && n ≤ 0x20) || n == 0x85 || n == 0xa0 || n == 0x1680 ||
    (0x2000 ≤ n && n ≤ 0x200a) || n == 0x2028 || n == 0x2029 || n == 0x202f || n == 0x205f ||
    n == 0x3000

def stripStart (cs : List Char) : List Char := cs.dropWhile isBlank

def stripEnd (cs : List Char) : List Char := (cs.reverse.dropWhile isBlank).reverse

/-- The text without the blanks at its two ends. -/
def strip (s : String) : String := String.ofList (stripEnd (stripStart s.toList))

/-- The text that bytes encode; none if they are no valid UTF-8. -/
def ofUtf8? (bytes : List UInt8) : Option String := String.fromUTF8? ⟨bytes.toArray⟩

/-- Whether a code is half of a pair, which is no character by itself. -/
def isHalfCode (code : Nat) : Bool := 0xd800 ≤ code && code ≤ 0xdfff

def toUtf8 (s : String) : List UInt8 := s.toUTF8.toList

end CeilingGate.Text
