import GatewayLedger.Text.Utf8

/-!
# Character sets

The character sets in which an answer may be sent. A platform knows its codecs by name, and takes
UTF-8 for a name that it does not know. A codec that replaces what it cannot read never fails, but not
every codec can do that.

`Charset.codecs` knows UTF-8 with a signature, Latin-1, ASCII and little-endian UTF-16, by all their
usual names. The other codecs of a platform are not among them.
-/

namespace GatewayLedger.Text

/-- The text that bytes stand for, or nothing if the codec refuses them. -/
abbrev Codec := List UInt8 → Option String

/-- The codecs of a platform by their names. UTF-8 itself need not be listed. -/
abbrev Codecs := String → Option Codec

/-- Decodes a text whose character set may be named; an empty name counts as none. -/
def Codecs.decode (codecs : Codecs) (charset : Option String) (bs : List UInt8) : Option String :=
  match (charset.filter (· != "")).bind codecs with
  | some codec => codec bs
  | none => some (decodeUtf8 bs)

inductive Charset where
  | utf8WithSignature
  | latin1
  | ascii
  | utf16le
deriving DecidableEq

namespace Charset

/-- A name in lower case, with an underscore for whatever stands between its parts. -/
def foldName (name : String) : String :=
  let isPart (c : Char) : Bool := c.isAlphanum || c == '.'
  let parts := name.toList.splitBy fun a b => isPart a == isPart b
  "_".intercalate ((parts.filter (·.any isPart)).map fun cs => String.ofList (cs.map (·.toLower)))

def names : Charset → List String
  | utf8WithSignature => ["utf_8_sig"]
  | latin1 => ["latin_1", "8859", "cp819", "csisolatin1", "ibm819", "iso8859", "iso8859_1",
      "iso_8859_1", "iso_8859_1_1987", "iso_ir_100", "l1", "latin", "latin1"]
  | ascii => ["ascii", "646", "ansi_x3.4_1968", "ansi_x3_4_1968", "ansi_x3.4_1986", "cp367",
      "csascii", "ibm367", "iso646_us", "iso_646.irv_1991", "iso_ir_6", "us", "us_ascii"]
  | utf16le => ["utf_16_le", "unicodelittleunmarked", "utf_16le"]

def named? (name : String) : Option Charset :=
  [utf8WithSignature, latin1, ascii, utf16le].find? fun c => c.names.contains (foldName name)

def isHighSurrogate (n : Nat) : Bool := 0xD800 ≤ n && n < 0xDC00

def isLowSurrogate (n : Nat) : Bool := 0xDC00 ≤ n && n < 0xE000

def joinSurrogates (high low : Nat) : Char :=
  Char.ofNat (0x10000 + (high - 0xD800) * 0x400 + (low - 0xDC00))

/-- The units of a little-endian text, and whether a last byte is left over. -/
def units16 : List UInt8 → List Nat × Bool
  | a :: b :: rest => let (us, odd) := units16 rest; ((a.toNat + 256 * b.toNat) :: us, odd)
  | [_] => ([], true)
  | [] => ([], false)

/-- A high surrogate at the very end takes a left-over byte with it. -/
def charsOfUnits (odd : Bool) : List Nat → List Char
  | [] => if odd then [replacement] else []
  | [u] =>
    if isHighSurrogate u then [replacement]
    else (if isLowSurrogate u then replacement else Char.ofNat u) :: charsOfUnits odd []
  | u :: v :: rest =>
    if isHighSurrogate u then
      if isLowSurrogate v then joinSurrogates u v :: charsOfUnits odd rest
      else replacement :: charsOfUnits odd (v :: rest)
    else
      (if isLowSurrogate u then replacement else Char.ofNat u) :: charsOfUnits odd (v :: rest)

/-- The mark that may stand before a text in UTF-8. -/
def signature : List UInt8 := [0xEF, 0xBB, 0xBF]

def decode (charset : Charset) (bs : List UInt8) : String :=
  match charset with
  | utf8WithSignature => decodeUtf8 (if signature.isPrefixOf bs then bs.drop 3 else bs)
  | latin1 => String.ofList (bs.map fun b => Char.ofNat b.toNat)
  | ascii =>
    String.ofList (bs.map fun b => if b.toNat < 128 then Char.ofNat b.toNat else replacement)
  | utf16le => let (us, odd) := units16 bs; String.ofList (charsOfUnits odd us)

def codecs : Codecs := fun name => (named? name).map fun charset bs => some (charset.decode bs)

end Charset

end GatewayLedger.Text
