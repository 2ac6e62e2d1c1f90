import ScriptIndex.Text.Pieces
import ScriptIndex.Text.Quoted

namespace ScriptIndex

inductive Encoding where
  | utf8
  | ascii
  | latin1
  | utf16
  deriving DecidableEq, Repr

structure DecodeError where
  codec : String
  first : UInt8
  start : Nat
  stop : Nat
  reason : String
  deriving DecidableEq, Repr

def DecodeError.message (e : DecodeError) : String :=
  let bytes :=
    if e.stop = e.start + 1 then
      "byte 0x" ++ String.ofList (Text.hex 2 e.first.toNat) ++ " in position " ++ toString e.start
    else "bytes in position " ++ toString e.start ++ "-" ++ toString (e.stop - 1)
  "'" ++ e.codec ++ "' codec can't decode " ++ bytes ++ ": " ++ e.reason

/-- Why bytes could not be read as text. -/
inductive TextError where
  | malformed (e : DecodeError)
  /-- The codec gives up without saying at which bytes, as UTF-16 does without a mark for the byte order. -/
  | refused
  deriving DecidableEq, Repr

/-- A text encoding as it is used: how it reads bytes, and whether it can write the empty text, which one
that refuses everything cannot. -/
structure Codec where
  decode : List UInt8 → Except TextError (List Char)
  writes : Bool := true

namespace Encoding

private def isTail (b : UInt8) : Bool :=
  b.toNat / 64 == 2

/-- The smallest and the greatest second byte behind a first one; they rule out long forms, surrogates,
and numbers beyond the last character. -/
def secondRange (b : UInt8) : Nat × Nat :=
  if b = 0xe0 then (0xa0, 0xbf)
  else if b = 0xed then (0x80, 0x9f)
  else if b = 0xf0 then (0x90, 0xbf)
  else if b = 0xf4 then (0x80, 0x8f)
  else (0x80, 0xbf)

private def isSecond (b c : UInt8) : Bool :=
  (secondRange b).1 ≤ c.toNat && c.toNat ≤ (secondRange b).2

private def joined (lead : Nat) (tail : List UInt8) : Char :=
  Char.ofNat (tail.foldl (fun n b => 64 * n + b.toNat % 64) lead)

def utf8From (i : Nat) (done : List Char) : List UInt8 → Except DecodeError (List Char)
  | [] => .ok done.reverse
  | b :: rest =>
    let wrong (n : Nat) (reason : String) := Except.error ⟨"utf-8", b, i, i + n, reason⟩
    let short (n : Nat) := wrong n "unexpected end of data"
    let broken (n : Nat) := wrong n "invalid continuation byte"
    if b < 0x80 then utf8From (i + 1) (Char.ofNat b.toNat :: done) rest
    else if b < 0xc2 ∨ 0xf5 ≤ b then wrong 1 "invalid start byte"
    else if b < 0xe0 then
      match rest with
      | [] => short 1
      | c :: rest =>
        if !isTail c then broken 1
        else utf8From (i + 2) (joined (b.toNat % 32) [c] :: done) rest
    else if b < 0xf0 then
      match rest with
      | [] => short 1
      | [c] => if isSecond b c then short 2 else broken 1
      | c :: d :: rest =>
        if !isSecond b c then broken 1
        else if !isTail d then broken 2
        else utf8From (i + 3) (joined (b.toNat % 16) [c, d] :: done) rest
    else
      match rest with
      | [] => short 1
      | [c] => if isSecond b c then short 2 else broken 1
      | [c, d] => if !isSecond b c then broken 1 else if isTail d then short 3 else broken 2
      | c :: d :: e :: rest =>
        if !isSecond b c then broken 1
        else if !isTail d then broken 2
        else if !isTail e then broken 3
        else utf8From (i + 4) (joined (b.toNat % 8) [c, d, e] :: done) rest

def asciiFrom (i : Nat) (done : List Char) : List UInt8 → Except DecodeError (List Char)
  | [] => .ok done.reverse
  | b :: rest =>
    if b < 0x80 then asciiFrom (i + 1) (Char.ofNat b.toNat :: done) rest
    else .error ⟨"ascii", b, i, i + 1, "ordinal not in range(128)"⟩

/-- Reads UTF-16 from position `i` on, with the more significant byte of a unit in second place, or in
first place if `big` is set. -/
def utf16From (big : Bool) (i : Nat) (done : List Char) : List UInt8 → Except DecodeError (List Char)
  | [] => .ok done.reverse
  | [b] => .error ⟨codec big, b, i, i + 1, "truncated data"⟩
  | b :: c :: rest =>
    let n := unit big b c
    if n < 0xd800 ∨ 0xe000 ≤ n then utf16From big (i + 2) (Char.ofNat n :: done) rest
    else if 0xdc00 ≤ n then .error ⟨codec big, b, i, i + 2, "illegal encoding"⟩
    else
      match rest with
      | d :: e :: rest =>
        let m := unit big d e
        if 0xdc00 ≤ m ∧ m < 0xe000 then
          utf16From big (i + 4) (Char.ofNat (0x10000 + (n - 0xd800) * 0x400 + (m - 0xdc00)) :: done) rest
        else .error ⟨codec big, b, i, i + 2, "illegal UTF-16 surrogate"⟩
      | rest => .error ⟨codec big, b, i, i + 2 + rest.length, "unexpected end of data"⟩
where
  /-- The name of UTF-16 with a byte order. -/
  codec (big : Bool) : String := if big then "utf-16-be" else "utf-16-le"
  /-- The unit made of two bytes. -/
  unit (big : Bool) (b c : UInt8) : Nat :=
    if big then b.toNat * 256 + c.toNat else c.toNat * 256 + b.toNat

def decode (e : Encoding) (bytes : List UInt8) : Except TextError (List Char) :=
  match e with
  | .utf8 => (utf8From 0 [] bytes).mapError .malformed
  | .ascii => (asciiFrom 0 [] bytes).mapError .malformed
  | .latin1 => .ok (bytes.map fun b => Char.ofNat b.toNat)
  | .utf16 =>
    match bytes with
    | [] => .ok []
    | 0xff :: 0xfe :: rest => (utf16From false 2 [] rest).mapError .malformed
    | 0xfe :: 0xff :: rest => (utf16From true 2 [] rest).mapError .malformed
    | bytes =>
      match utf16From false 0 [] bytes with
      | .error e => .error (.malformed e)
      | .ok _ => .error .refused

def codec (e : Encoding) : Codec where
  decode := e.decode

end Encoding

/-- The codecs that there are, by the names that are understood. Nothing is known of them but that the
default name is the one of UTF-8. -/
class Codecs where
  find? : String → Option Codec
  find?_utf8 : find? "utf-8" = some Encoding.utf8.codec

namespace Codecs

def plainName (name : String) : String :=
  let marked := name.toList.map fun c => if c.isAlphanum ∨ c = '.' then c.toLower else '_'
  String.ofList (['_'].intercalate ((marked.splitOn '_').filter (· ≠ [])))

def named : List (String × Codec) :=
  [("utf_8", Encoding.utf8.codec), ("ascii", Encoding.ascii.codec), ("latin_1", Encoding.latin1.codec),
    ("utf_16", Encoding.utf16.codec), ("undefined", ⟨fun _ => .error .refused, false⟩)]

def otherNames : List (String × String) :=
  ["u8", "utf", "utf8", "utf8_ucs2", "utf8_ucs4", "cp65001"].map (·, "utf_8") ++
    ["646", "ansi_x3.4_1968", "ansi_x3_4_1968", "ansi_x3.4_1986", "cp367", "csascii", "ibm367",
      "iso646_us", "iso_646.irv_1991", "iso_ir_6", "us", "us_ascii"].map (·, "ascii") ++
    ["8859", "cp819", "csisolatin1", "ibm819", "iso8859", "iso8859_1", "iso_8859_1",
      "iso_8859_1_1987", "iso_ir_100", "l1", "latin", "latin1"].map (·, "latin_1") ++
    ["u16", "utf16"].map (·, "utf_16")

@[reducible] def standard : Codecs where
  find? name :=
    let name := plainName name
    let undotted := String.ofList (name.toList.map fun c => if c = '.' then '_' else c)
    named.lookup (((otherNames.lookup name).or (otherNames.lookup undotted)).getD name)
  find?_utf8 := by rfl

end Codecs

end ScriptIndex
