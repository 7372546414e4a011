import Mathlib.Data.List.DropRight
import EasyNews.Characters
import EasyNews.Library.Delimited

/-! # The parts of Swift's standard library and Foundation the client rests on

Texts are lists of Unicode scalars. CR LF is one `Character` of a Swift `String`, whatever stands around
it, so `split(separator: "\r\n")` cuts exactly at the pairs of the two scalars; `crlf` is that pair.

* `split` — `split(separator: "\r\n")`.
* `splitter` — `NewsReader.splitter`, over `range(of:options:)`.
* `trimmingCharacters`, `intOfText`, `utf8`, `decodeUtf8`.
-/

namespace EasyNews

open Delimited

abbrev Bytes := List UInt8

def crlf : Delimiter Char := ⟨'\r', '\n', by decide⟩

/-! ## Cutting -/

/-- `text.split(separator: "\r\n")`: the nonempty lines. -/
def split (text : Text) : List Text := crlf.fields text

/-- The `NSString.CompareOptions` the client passes to `range(of:options:)`. -/
inductive CompareOptions where
  | backwards
  | caseInsensitive
deriving DecidableEq, Repr

/-- The texts before and after `line.range(of: delimiter, options: direction)`. CR LF is sought backwards, a
    colon forwards; no scalar may join the colon. -/
def rangeOf (line delimiter : Text) : CompareOptions → Option (Text × Text)
  | .backwards => lastRange delimiter line
  | .caseInsensitive => firstRange Char.toLower (fun back => !joined back) delimiter line

/-- `NewsReader.splitter`. Without an occurrence the whole line is the front. -/
def splitter (line : Text) (delimiter : Text := crlf.symbols)
    (direction : CompareOptions := .backwards) : Text × Text :=
  match rangeOf line delimiter direction with
  | some (what, newLine) => (what, newLine)
  | none => (line, [])

@[simp] theorem splitter_nil : splitter [] = ([], []) := rfl

theorem splitter_append (front : Text) {back : Text} (unbroken : crlf.Unbroken back) :
    splitter (front ++ (crlf.symbols ++ back)) = (front, back) := by
  simp [splitter, rangeOf, crlf.lastRange_append front unbroken]

theorem splitter_cases {line front rest : Text} (cut : splitter line = (front, rest)) :
    rest = [] ∨ line = front ++ (crlf.symbols ++ rest) := by
  cases found : lastRange crlf.symbols line with
  | none =>
    rw [splitter, rangeOf, found] at cut
    exact Or.inl (Prod.mk.inj cut).2.symm
  | some parts =>
    rw [splitter, rangeOf, found] at cut
    obtain ⟨rfl, rfl⟩ := Prod.mk.inj cut
    have joined := (lastRange_eq_some crlf.symbols_ne_nil found).1
    rw [List.append_assoc] at joined
    exact Or.inr joined

/-! ## Characters, numbers -/

/-- `CharacterSet.whitespaces`: the space separators (Zs) and the tab. -/
def isWhitespace (char : Char) : Bool :=
  char.toNat ∈ [0x09, 0x20, 0xA0, 0x1680, 0x202F, 0x205F, 0x3000] ||
    (0x2000 ≤ char.toNat && char.toNat ≤ 0x200A)

/-- `CharacterSet.whitespacesAndNewlines`: also U+000A to U+000D, U+0085 and the line and
    paragraph separators. -/
def isWhitespaceOrNewline (char : Char) : Bool :=
  isWhitespace char || (0x0A ≤ char.toNat && char.toNat ≤ 0x0D) ||
    char.toNat ∈ [0x85, 0x2028, 0x2029]

def trimmingCharacters (inSet : Char → Bool) (text : Text) : Text :=
  (text.dropWhile inSet).rdropWhile inSet

/-- The value of ASCII decimal digits; `none` for no digit at all or another character. -/
def decimalOfText (digits : Text) : Option Nat :=
  if digits ≠ [] ∧ digits.all Char.isDigit then
    some (digits.foldl (fun value digit => 10 * value + (digit.toNat - '0'.toNat)) 0)
  else none

/-- `Int(text)`: an optional sign and decimal digits within the 64-bit range. -/
def intOfText (text : Text) : Option Int := do
  let value : Int ← match text with
    | '-' :: digits => (decimalOfText digits).map fun value => -(value : Int)
    | '+' :: digits => (decimalOfText digits).map fun value => (value : Int)
    | digits => (decimalOfText digits).map fun value => (value : Int)
  if Int64.minValue.toInt ≤ value ∧ value ≤ Int64.maxValue.toInt then some value else none

example : intOfText "0012".toList = some 12 ∧ intOfText "-7".toList = some (-7) ∧
    intOfText "9223372036854775808".toList = none ∧ intOfText " 1".toList = none := by decide

/-! ## Encodings -/

def utf8 (text : Text) : Bytes := text.flatMap String.utf8EncodeChar

/-- `String(bytesNoCopy:length:encoding: .utf8)`: `none` unless all of the bytes are UTF-8. -/
def decodeUtf8 (bytes : Bytes) : Option Text := bytes.toByteArray.utf8Decode?.map Array.toList

@[simp] theorem decodeUtf8_utf8 (text : Text) : decodeUtf8 (utf8 text) = some text := by
  have decoded : (utf8 text).toByteArray.utf8Decode? = some text.toArray :=
    List.utf8Decode?_utf8Encode
  rw [decodeUtf8, decoded]
  rfl

@[simp] theorem utf8_nil : utf8 [] = [] := rfl

@[simp] theorem utf8_append (front back : Text) : utf8 (front ++ back) = utf8 front ++ utf8 back := by
  simp [utf8]

/-- `NewsReader.processedMessageString`: UTF-8 first, else what the ASCII decoder makes of the
    bytes. -/
def processedMessageString (asciiDecode : Bytes → Option Text) (buffer : Bytes) : Option Text :=
  match decodeUtf8 buffer with
  | some message => some message
  | none =>
    match asciiDecode buffer with
    | some message => some message
    | none => none

@[simp] theorem processedMessageString_utf8 (asciiDecode : Bytes → Option Text) (text : Text) :
    processedMessageString asciiDecode (utf8 text) = some text := by
  simp [processedMessageString]

end EasyNews
