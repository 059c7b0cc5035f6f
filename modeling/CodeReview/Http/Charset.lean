import CodeReview.Text.Blank
import CodeReview.Text.Utf8

/-!
# The text of a body

Bytes are read in the charset that the content type names, as UTF-8 where it names none that is
known here.  A byte order mark at the start counts more than the content type and is dropped.
Bytes that stand for no character become replacement characters.
-/

namespace CodeReview.Http

open CodeReview.Text

/-- A way to read bytes as text. -/
inductive Charset where
  | utf8
  | utf16 (bigEndian : Bool)
  | windows1252
  deriving Repr, DecidableEq

namespace Charset

/-- Names of charsets, in lower case. -/
def labels : List (Charset × List String) :=
  [(utf8, ["utf-8", "utf8", "unicode-1-1-utf-8", "unicode11utf8", "unicode20utf8",
      "x-unicode20utf8"]),
    (utf16 true, ["utf-16be", "unicodefffe"]),
    (utf16 false, ["utf-16", "utf-16le", "csunicode", "iso-10646-ucs-2", "ucs-2", "unicode",
      "unicodefeff"]),
    (windows1252, ["windows-1252", "iso-8859-1", "us-ascii", "latin1", "ascii",
      "ansi_x3.4-1968", "cp1252", "cp819", "csisolatin1", "ibm819", "iso-ir-100", "iso8859-1",
      "iso88591", "iso_8859-1", "iso_8859-1:1987", "l1", "x-cp1252"])]

/-- The charset of a name; case and blank ends do not matter. -/
def ofLabel? (label : String) : Option Charset :=
  (labels.find? fun p => p.2.contains (lowerAscii (trim label))).map (·.1)

/-- A run of characters that may stand in a parameter without quotes. -/
def isTokenChar (c : Char) : Bool :=
  c.isAlphanum || ['!', '#', '$', '&', '-', '^', '_', '.', '+', '%', '*', '\'', '\x60'].contains c

/-- The value of a parameter from its first character on. -/
def parameterValue : List Char → List Char
  | '"' :: rest => rest.takeWhile (· ≠ '"')
  | s => s.takeWhile isTokenChar

/-- The value of the first parameter of this name among those behind a content type. -/
def parameter? (name : String) (s : List Char) : Option String :=
  let rec search : Nat → List Char → Option String
    | 0, _ => none
    | fuel + 1, s =>
      match (s.dropWhile (· ≠ ';')).drop 1 with
      | [] => none
      | rest =>
        let rest := rest.dropWhile (· == ' ')
        let key := rest.takeWhile isTokenChar
        match rest.drop key.length with
        | '=' :: value =>
          if lowerAscii (String.ofList key) == name then some (String.ofList (parameterValue value))
          else search fuel value
        | rest => search fuel rest
  search (s.length + 1) s

/-- The charset that a content type names. -/
def ofContentType (contentType : Option String) : Charset :=
  ((contentType.bind fun t => parameter? "charset" t.toList).bind ofLabel?).getD utf8

/-- Characters of 16-bit units; half of a pair alone has no character. -/
def ofUnits : List Nat → List Char
  | [] => []
  | a :: rest =>
    if a < 0xD800 || 0xE000 ≤ a then Char.ofNat a :: ofUnits rest
    else if a < 0xDC00 then
      match rest with
      | b :: more =>
        if 0xDC00 ≤ b && b < 0xE000 then
          Char.ofNat (0x10000 + (a - 0xD800) * 0x400 + (b - 0xDC00)) :: ofUnits more
        else replacement :: ofUnits (b :: more)
      | [] => [replacement]
    else replacement :: ofUnits rest

/-- 16-bit units of bytes, and whether a byte is left over. -/
def units (bigEndian : Bool) : List UInt8 → List Nat × Bool
  | [] => ([], false)
  | [_] => ([], true)
  | a :: b :: rest =>
    let (us, odd) := units bigEndian rest
    ((if bigEndian then a.toNat * 256 + b.toNat else b.toNat * 256 + a.toNat) :: us, odd)

/-- The characters of the bytes from 128 to 159. -/
def upperControls : List Nat :=
  [0x20AC, 0x81, 0x201A, 0x0192, 0x201E, 0x2026, 0x2020, 0x2021, 0x02C6, 0x2030, 0x0160, 0x2039,
    0x0152, 0x8D, 0x017D, 0x8F, 0x90, 0x2018, 0x2019, 0x201C, 0x201D, 0x2022, 0x2013, 0x2014,
    0x02DC, 0x2122, 0x0161, 0x203A, 0x0153, 0x9D, 0x017E, 0x0178]

/-- The text of bytes without a byte order mark. -/
def decode (bytes : List UInt8) : Charset → String
  | utf8 => ofBytes bytes
  | utf16 bigEndian =>
    let (us, odd) := units bigEndian bytes
    String.ofList (ofUnits us ++ if odd then [replacement] else [])
  | windows1252 =>
    String.ofList (bytes.map fun b =>
      Char.ofNat (if 0x80 ≤ b && b < 0xA0 then upperControls.getD (b.toNat - 0x80) 0 else b.toNat))

end Charset

/-- The text of a body with a content type. -/
def bodyText (contentType : Option String) (bytes : List UInt8) : String :=
  match bytes with
  | 0xEF :: 0xBB :: 0xBF :: rest => Charset.decode rest .utf8
  | 0xFE :: 0xFF :: rest => Charset.decode rest (.utf16 true)
  | 0xFF :: 0xFE :: rest => Charset.decode rest (.utf16 false)
  | bytes => Charset.decode bytes (Charset.ofContentType contentType)

end CodeReview.Http
