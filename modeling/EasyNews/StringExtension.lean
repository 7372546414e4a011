import EasyNews.Foundation

/-! # Part numbers in subjects

A subject such as `holiday.jpg (2/7)` names one part of a multi-part post. The client finds the
mark with `NSRegularExpression`; both of its patterns are built from `\d+\/\d+` between a pair of
brackets, so a match that starts at a place is unique there.
-/

namespace EasyNews

/-! ## Regular expressions -/

/-- The zeros of Unicode's runs of ten decimal digits (category Nd, Unicode 14). -/
def decimalZeros : List Nat :=
  [0x30, 0x660, 0x6F0, 0x7C0, 0x966, 0x9E6, 0xA66, 0xAE6, 0xB66, 0xBE6, 0xC66, 0xCE6, 0xD66, 0xDE6,
    0xE50, 0xED0, 0xF20, 0x1040, 0x1090, 0x17E0, 0x1810, 0x1946, 0x19D0, 0x1A80, 0x1A90, 0x1B50,
    0x1BB0, 0x1C40, 0x1C50, 0xA620, 0xA8D0, 0xA900, 0xA9D0, 0xA9F0, 0xAA50, 0xABF0, 0xFF10, 0x104A0,
    0x10D30, 0x11066, 0x110F0, 0x11136, 0x111D0, 0x112F0, 0x11450, 0x114D0, 0x11650, 0x116C0,
    0x11730, 0x118E0, 0x11950, 0x11C50, 0x11D50, 0x11DA0, 0x16A60, 0x16AC0, 0x16B50, 0x1D7CE,
    0x1D7D8, 0x1D7E2, 0x1D7EC, 0x1D7F6, 0x1E140, 0x1E2F0, 0x1E950, 0x1FBF0]

/-- `\d`, which is not only the ASCII digits. -/
def isDecimalDigit (char : Char) : Bool :=
  decimalZeros.any fun first => first ≤ char.toNat && char.toNat < first + 10

/-- `\d+` followed by `next`: the digits and what stands behind `next`. -/
def matchDigits (next : Char) (text : Text) : Option (Text × Text) :=
  match text.takeWhile isDecimalDigit, text.dropWhile isDecimalDigit with
  | [], _ => none
  | digits, symbol :: rest => if symbol = next then some (digits, rest) else none
  | _, [] => none

/-- The match of `\d+\/\d+` between `opening` and `closing` that starts the text. -/
def matchIndex (opening closing : Char) : Text → Option Text
  | [] => none
  | symbol :: text =>
    if symbol = opening then do
      let (number, text) ← matchDigits '/' text
      let (count, _) ← matchDigits closing text
      return opening :: number ++ '/' :: count ++ [closing]
    else none

/-- `\(\d+\/\d+\)`, the pattern of `ArticlesTableVM`. -/
def partMark : Text → Option Text := matchIndex '(' ')'

/-- `\(\d+\/\d+\)|\[\d+\/\d+\]`, the pattern of `fileNumber`. -/
def fileMark (text : Text) : Option Text := matchIndex '(' ')' text <|> matchIndex '[' ']' text

/-- `regex.matches(in:options:range:)`: the leftmost matches, none overlapping another. The scan
    passes over the symbols that the last match has taken. -/
def regexMatches (pattern : Text → Option Text) (text : Text) (taken : Nat := 0) : List Text :=
  match text, taken with
  | [], _ => []
  | _ :: rest, taken + 1 => regexMatches pattern rest taken
  | symbol :: rest, 0 =>
    match pattern (symbol :: rest) with
    | some matched => matched :: regexMatches pattern rest (matched.length - 1)
    | none => regexMatches pattern rest 0

/-- `text.replacingOccurrences(of: target, with: "")`; a scalar behind an occurrence must not join it. -/
def removingOccurrences (target text : Text) (taken : Nat := 0) : Text :=
  match text, taken with
  | [], _ => []
  | _ :: rest, taken + 1 => removingOccurrences target rest taken
  | symbol :: rest, 0 =>
    if target ≠ [] ∧ starts (symbol :: rest) target then removingOccurrences target rest (target.length - 1)
    else symbol :: removingOccurrences target rest 0

/-! ## `extension String` -/

/-- `fileNumber()`: the part number of a subject with one mark, else 0. -/
def fileNumber (subject : Text) : Int :=
  match regexMatches fileMark subject with
  | [matched] =>
    let num := removingOccurrences ")".toList (removingOccurrences "(".toList matched)
    match (num.splitOn '/').filter (· ≠ []) with
    | [number, _] => (intOfText number).getD 0
    | _ => 0
  | _ => 0

/-- `nudeSubject()`: the subject without its mark, if it has one mark. -/
def nudeSubject (subject : Text) : Text :=
  match regexMatches fileMark subject with
  | [matchString] => trimmingCharacters isWhitespace (removingOccurrences matchString subject)
  | _ => subject

example : fileNumber "holiday.jpg (02/7)".toList = 2 ∧ fileNumber "a (1/2) (1/2)".toList = 0 ∧
    fileNumber "holiday".toList = 0 := by decide

end EasyNews
