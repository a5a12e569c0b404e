import Mathlib.Data.String.Basic

/-! The string functions of the Rust standard library that the crate calls, over lists of characters. -/

namespace AnpIdentity.Text

/-- `char::is_whitespace`: the Unicode property White_Space. -/
def isWhitespace (c : Char) : Bool :=
  let n := c.toNat
  (9 ≤ n && n ≤ 13) || n == 0x20 || n == 0x85 || n == 0xA0 || n == 0x1680 || (0x2000 ≤ n && n ≤ 0x200A) ||
    n == 0x2028 || n == 0x2029 || n == 0x202F || n == 0x205F || n == 0x3000

/-- `str::trim`. -/
def trim (s : String) : String :=
  String.ofList ((s.toList.dropWhile isWhitespace).reverse.dropWhile isWhitespace).reverse

/-- `str::trim().is_empty()`. -/
def isBlank (s : String) : Bool := s.toList.all isWhitespace

/-- `str::starts_with`. -/
def startsWith (s head : String) : Bool := head.toList.isPrefixOf s.toList

/-- `str::strip_prefix`. -/
def strip (s head : String) : Option String :=
  if startsWith s head then some (String.ofList (s.toList.drop head.toList.length)) else none

/-- `str::contains` for one character. -/
def contains (s : String) (c : Char) : Bool := s.toList.contains c

/-- `str::len`: the length in bytes. -/
def len (s : String) : Nat := s.utf8ByteSize

/-- A byte-string literal. -/
def ascii (s : String) : List UInt8 := s.toList.map (fun c => UInt8.ofNat c.toNat)

private def isOctet (part : List Char) : Bool :=
  part.all Char.isDigit && 1 ≤ part.length && part.length ≤ 3 && (part.length == 1 || part.head? != some '0') &&
    part.foldl (fun n c => n * 10 + (c.toNat - 48)) 0 ≤ 255

/-- The dotted form that `Ipv4Addr::from_str` accepts. -/
def isIpv4 (s : String) : Bool :=
  let parts := s.toList.splitOn '.'
  parts.length == 4 && parts.all isOctet

end AnpIdentity.Text
