import EasyNews.Foundation
import EasyNews.Library.CyclicRedundancy

/-! # `YEnc`, the coder for binary files

`encode_to_file` writes a file in lines of text between a header and a trailer, `decode` makes the file again,
`pass_crc32?` compares its checksum with the one of the trailer.

Ruby's exceptions are the errors here. A path is what it is written as, strings are UTF-8, and a file that is
written has its bytes once it is closed. `decode` reads the text while it makes the new file; if that is the text
itself, only what stands in the reader's buffer is left of it.

* `Zlib.crc32`, `capture` — what is used of Zlib and of regular expressions.
* `YEnc.encodeToFile`, `YEnc.encode`, `YEnc.decode`, `YEnc.passCrc32`.
-/

namespace EasyNews

/-! ## Ruby's library -/

namespace Zlib

/-- The bits of a byte, the lowest first. -/
def bitsOf (byte : UInt8) : List Bool := (List.range 8).map byte.toBitVec.getLsbD

def polynomial : BitVec 32 := 0xEDB88320

/-- `Zlib.crc32(bytes, 0)`. -/
def crc32 (bytes : Bytes) : BitVec 32 :=
  ~~~ CyclicRedundancy.run polynomial (BitVec.allOnes 32) (bytes.flatMap bitsOf)

example : crc32 (utf8 "123456789".toList) = 0xCBF43926 := by decide +kernel

end Zlib

inductive RubyError where
  /-- A file cannot be opened, for reading or for writing. -/
  | systemCallError
  /-- A regular expression meets bytes that are not UTF-8. -/
  | argumentError
  /-- A string and nil are joined. -/
  | typeError
  /-- A method of nil is called. -/
  | noMethodError
deriving DecidableEq, Repr

/-- The files by their paths, the paths at which `File.new` can make one, and how many bytes the buffer of a reader
    holds behind the ones that it has read. -/
structure Disk where
  files : Text → Option Bytes
  creatable : Text → Bool
  buffered : Nat → Nat

namespace Disk

/-- `File.read(path)`, `File.open(path)`. -/
def read (disk : Disk) (path : Text) : Except RubyError Bytes :=
  match disk.files path with
  | some bytes => .ok bytes
  | none => .error .systemCallError

def write (disk : Disk) (path : Text) (bytes : Bytes) : Disk :=
  { disk with files := Function.update disk.files path (some bytes) }

@[simp] theorem write_same (disk : Disk) (path : Text) (bytes : Bytes) :
    (disk.write path bytes).files path = some bytes := Function.update_self _ _ _

theorem write_other (disk : Disk) {path other : Text} (bytes : Bytes) (apart : other ≠ path) :
    (disk.write path bytes).files other = disk.files other := Function.update_of_ne apart _ _

@[simp] theorem write_write (disk : Disk) (path : Text) (bytes later : Bytes) :
    (disk.write path bytes).write path later = disk.write path later := by
  simp [write]

/-- `File.new(path, "w")` empties the file. -/
def create (disk : Disk) (path : Text) : Except RubyError Disk :=
  if disk.creatable path then .ok (disk.write path []) else .error .systemCallError

/-- `File.size?(path)` in a string, where nil is nothing. -/
def size (disk : Disk) (path : Text) : Text :=
  match disk.files path with
  | none | some [] => []
  | some bytes => Nat.toDigits 10 bytes.length

end Disk

/-- `File.basename(path)`. -/
def basename (path : Text) : Text :=
  let trimmed := path.rdropWhile (· = '/')
  if trimmed ≠ [] then trimmed.rtakeWhile (· ≠ '/')
  else if path ≠ [] then "/".toList
  else []

/-- `each_line`: a line has its line feed. -/
def eachLine : Bytes → List Bytes
  | [] => []
  | byte :: rest =>
    if byte = 10 then [byte] :: eachLine rest
    else match eachLine rest with
      | [] => [[byte]]
      | line :: lines => (byte :: line) :: lines

/-- `\s` of a regular expression. -/
def isRegexSpace (char : Char) : Bool := char ∈ [' ', '\t', '\r', '\n', '\x0b', '\x0c']

/-- `(.*)`: the rest of the line. -/
def restOfLine (text : Text) : Option Text := some (text.takeWhile (· ≠ '\n'))

/-- `([^\s]+)`. -/
def oneWord (text : Text) : Option Text :=
  match text.takeWhile fun char => !isRegexSpace char with
  | [] => none
  | word => some word

/-- The group behind the first place where the key and the group match. -/
def capture (key : Text) (group : Text → Option Text) : Text → Option Text
  | [] => none
  | char :: rest =>
    match (if key.isPrefixOf (char :: rest) then group ((char :: rest).drop key.length) else none) with
    | some found => some found
    | none => capture key group rest

/-- `line[/key(group)/, 1]` on the bytes of a line. -/
def match1 (key : String) (group : Text → Option Text) (line : Bytes) : Except RubyError (Option Text) :=
  match decodeUtf8 line with
  | some text => .ok (capture key.toList group text)
  | none => .error .argumentError

/-- What `strip` takes away: white space and nulls. -/
def isStripped (char : Char) : Bool := char ∈ ['\x00', '\t', '\n', '\x0b', '\x0c', '\r', ' ']

def strip (text : Text) : Text := trimmingCharacters isStripped text

/-! ## The coder -/

/-- `@new_file` and what has been put into it. -/
structure NewFile where
  path : Text
  bytes : Bytes := []
  closed : Bool := false
deriving DecidableEq, Repr

structure YEnc where
  filepath : Text
  outputpath : Text
  filename : Option Text := none
  filesize : Option Text := none
  line : Option Text := none
  crc32 : Option Text := none
  newFile : Option NewFile := none
deriving DecidableEq, Repr

namespace YEnc

/-- `initialize`. -/
def new (filepath outputpath : Text) : YEnc := { filepath, outputpath }

/-- The characters that are not written. -/
def special (char : Nat) : Bool := char ∈ [0, 10, 13, 61]

/-- What both encoders write for a byte. -/
def encodedByte (byte : UInt8) : Bytes :=
  let charToWrite := (byte.toNat + 42) % 256
  if special charToWrite then [61, UInt8.ofNat ((charToWrite + 64) % 256)] else [UInt8.ofNat charToWrite]

/-- The buffers that `f.read(128)` gives until the end of the file; each has a byte at least. -/
def buffers : Nat → Bytes → List Bytes
  | 0, _ | _, [] => []
  | fuel + 1, byte :: rest => (byte :: rest).take 128 :: buffers fuel ((byte :: rest).drop 128)

/-- The lines that both encoders write. -/
def encodedLines (bytes : Bytes) : List Bytes :=
  (buffers bytes.length bytes).map fun buffer => buffer.flatMap encodedByte ++ [10]

/-- `file_crc32(filepath)`. -/
def fileCrc32 (disk : Disk) (filepath : Text) : Except RubyError Text := do
  let f ← disk.read filepath
  return Nat.toDigits 16 (Zlib.crc32 f).toNat

def headerLine (size name : Text) : Text :=
  "=ybegin size=".toList ++ size ++ " line=128 ".toList ++ "name=".toList ++ name ++ "\n".toList

def trailerLine (crc32 : Text) : Text := "=yend size=312860 ".toList ++ "crc32=".toList ++ crc32 ++ "\n".toList

/-- `encode_to_file`. -/
def encodeToFile (outputfilename : Text) (yenc : YEnc) (disk : Disk) : Except RubyError Disk := do
  let path := yenc.outputpath ++ outputfilename
  let disk ← disk.create path
  let header := headerLine (disk.size yenc.filepath) (basename yenc.filepath)
  let bytes ← disk.read yenc.filepath
  let crc32 ← fileCrc32 disk yenc.filepath
  return disk.write path
    (utf8 header ++ (encodedLines bytes).flatten ++ utf8 (trailerLine (crc32.map Char.toUpper)))

/-- `encode`: the lines alone. -/
def encode (yenc : YEnc) (disk : Disk) : Except RubyError Bytes := do
  let bytes ← disk.read yenc.filepath
  return (encodedLines bytes).flatten

/-- `putc` writes the low byte. -/
def putc (char : Int) : UInt8 := UInt8.ofNat (char % 256).toNat

/-- A byte of a line: whether an escape came last, and what has been decoded. -/
def decodeByte (state : Bool × Bytes) (c : UInt8) : Bool × Bytes :=
  let (esc, decoded) := state
  if c = 13 ∨ c = 10 then (esc, decoded)
  else if c = 61 ∧ esc = false then (true, decoded)
  else
    let c : Int := if esc then (c.toNat : Int) - 64 else c.toNat
    (false, decoded ++ [putc (if 0 ≤ c ∧ c ≤ 41 then c + 214 else c - 42)])

def decodeLine (line : Bytes) : Bytes := (line.foldl decodeByte (false, [])).2

/-- Reading an attribute that has not been read. -/
def readOnce (known : Option Text) (key : String) (group : Text → Option Text) (line : Bytes) :
    Except RubyError (Option Text) :=
  match known with
  | some _ => .ok known
  | none => match1 key group line

def breakdownHeader (line : Bytes) (yenc : YEnc) (disk : Disk) : Except RubyError (YEnc × Disk) := do
  let filename ← readOnce yenc.filename "name=" restOfLine line
  let filesize ← readOnce yenc.filesize "size=" oneWord line
  let lineLength ← readOnce yenc.line "line=" oneWord line
  match filename with
  | none => .error .typeError
  | some name =>
    let path := yenc.outputpath ++ name
    let disk ← disk.create path
    return ({ yenc with filename, filesize, line := lineLength, newFile := some { path } }, disk)

def breakdownEndline (line : Bytes) (yenc : YEnc) : Except RubyError YEnc := do
  let crc32 ← readOnce yenc.crc32 "crc32=" restOfLine line
  return { yenc with crc32 }

/-- `@new_file.putc` for the bytes of a line. -/
def putLine (bytes : Bytes) (yenc : YEnc) : YEnc :=
  { yenc with newFile := yenc.newFile.map fun file => { file with bytes := file.bytes ++ bytes } }

/-- The walk over the lines, up to the trailer or the end of the file. -/
def decodeLines : List Bytes → Bool → YEnc → Disk → Except RubyError (YEnc × Disk)
  | [], _, yenc, disk => .ok (yenc, disk)
  | line :: lines, true, yenc, disk =>
    if utf8 "=yend".toList <+: line then do
      let yenc ← yenc.breakdownEndline line
      return (yenc, disk)
    else decodeLines lines true (yenc.putLine (decodeLine line)) disk
  | line :: lines, false, yenc, disk =>
    if utf8 "=ybegin".toList <+: line then do
      let (yenc, disk) ← yenc.breakdownHeader line disk
      decodeLines lines true yenc disk
    else decodeLines lines false yenc disk

/-- `is_yenc?`. -/
def isYenc (content : Bytes) : Bool := utf8 "=ybegin".toList <:+: content

/-- `@new_file.close`. -/
def closeNewFile (yenc : YEnc) (disk : Disk) : Except RubyError (YEnc × Disk) :=
  match yenc.newFile with
  | none => .error .noMethodError
  | some file =>
    if file.closed then .ok (yenc, disk)
    else .ok ({ yenc with newFile := some { file with closed := true } }, disk.write file.path file.bytes)

/-- Whether a header makes the new file where the text is. -/
def overwrites (yenc : YEnc) (header : Bytes) : Bool :=
  match readOnce yenc.filename "name=" restOfLine header with
  | .ok (some name) => yenc.outputpath ++ name = yenc.filepath
  | _ => false

/-- What `each_line` gives of the text: `File.new` empties it under the reader if it is the new file. -/
def textRead (yenc : YEnc) (disk : Disk) (content : Bytes) : Bytes :=
  let front := (eachLine content).takeWhile fun line => ¬ utf8 "=ybegin".toList <+: line
  match (eachLine content).drop front.length with
  | [] => content
  | header :: _ =>
    if yenc.overwrites header then
      let read := (front.flatten ++ header).length
      content.take (read + disk.buffered read)
    else content

/-- The branches of `decode`: what is not yEnc is not decoded. -/
def decodeContent (content : Bytes) (yenc : YEnc) (disk : Disk) : Except RubyError (YEnc × Disk) :=
  if isYenc content then decodeLines (eachLine (yenc.textRead disk content)) false yenc disk else .ok (yenc, disk)

/-- `decode`. The new file is closed in either case. -/
def decode (yenc : YEnc) (disk : Disk) : Except RubyError (YEnc × Disk) := do
  let content ← disk.read yenc.filepath
  let decoded ← yenc.decodeContent content disk
  decoded.1.closeNewFile decoded.2

/-- `pass_crc32?`. -/
def passCrc32 (yenc : YEnc) (disk : Disk) : Except RubyError Bool := do
  match yenc.filename with
  | none => .error .typeError
  | some filename =>
    let crc32 ← fileCrc32 disk (yenc.outputpath ++ filename)
    match yenc.crc32 with
    | none => .error .noMethodError
    | some own => return crc32 = strip (own.map Char.toLower)

end YEnc

end EasyNews
