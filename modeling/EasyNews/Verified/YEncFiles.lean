import EasyNews.Hexadecimals
import EasyNews.Library.Utf8Boundaries
import EasyNews.Verified.YEncLines

/-! # Walking through a yEnc text

A header gives the name of the new file, the lines behind it what goes into it, a trailer the checksum. The new
file is not the text.
-/

namespace EasyNews.Verified.YEncFiles

open YEnc YEncLines

/-! ## Header and trailer -/

section Capture

variable {key : Text} {group : Text → Option Text}

theorem capture_of_noPrefix {char : Char} {rest : Text} (noPrefix : ¬ key <+: char :: rest) :
    capture key group (char :: rest) = capture key group rest := by
  have isFalse : key.isPrefixOf (char :: rest) = false :=
    Bool.eq_false_iff.mpr fun isPrefix => noPrefix (List.isPrefixOf_iff_prefix.mp isPrefix)
  rw [capture, isFalse, if_neg Bool.false_ne_true]

/-- The first key is found, if no end of a key is the start of one. -/
theorem capture_append {front : Text} (absent : ¬ key <:+: front)
    (apart : ∀ back ∈ key.tails, back ≠ [] → back ≠ key → ¬ back <+: key) (rest : Text) :
    capture key group (front ++ (key ++ rest)) = capture key group (key ++ rest) := by
  induction front with
  | nil => rfl
  | cons char front inductionHypothesis =>
    have later := inductionHypothesis fun inside => absent (inside.trans (List.suffix_cons char front).isInfix)
    rw [List.cons_append, capture_of_noPrefix, later]
    intro begins
    rcases List.prefix_or_prefix_of_prefix begins (List.prefix_append (char :: front) (key ++ rest)) with inside | across
    · exact absent inside.isInfix
    · -- the key would end in the other one
      obtain ⟨back, isKey⟩ := across
      have longer : (char :: front) ++ back <+: (char :: front) ++ (key ++ rest) := isKey.symm ▸ begins
      have behind := (List.prefix_append_right_inj (char :: front)).mp longer
      have lengths := congrArg List.length isKey
      rw [List.length_append, List.length_cons] at lengths
      have inKey : back <+: key := List.prefix_of_prefix_length_le behind (List.prefix_append key rest) (by omega)
      refine apart back ((List.mem_tails _ _).mpr ⟨char :: front, isKey⟩) ?_ ?_ inKey
      · rintro rfl
        rw [List.append_nil] at isKey
        exact absent (isKey ▸ List.infix_refl key)
      · rintro rfl
        omega

theorem capture_found {start : Char} {rest found : Text} (isGroup : group rest = some found) :
    capture (start :: key) group (start :: key ++ rest) = some found := by
  have here : (start :: key).isPrefixOf (start :: (key ++ rest)) = true :=
    List.isPrefixOf_iff_prefix.mpr (List.prefix_append (start :: key) rest)
  have behind : (start :: (key ++ rest)).drop (start :: key).length = rest := List.drop_left
  rw [List.cons_append, capture, here, if_pos rfl, behind, isGroup]

end Capture

theorem restOfLine_line {text : Text} (oneLine : '\n' ∉ text) : restOfLine (text ++ "\n".toList) = some text := by
  have ends : "\n".toList = ['\n'] := rfl
  rw [restOfLine, ends, List.takeWhile_append_of_pos]
  · rw [List.takeWhile_cons_of_neg (by decide), List.append_nil]
  · intro char member
    have different : char ≠ '\n' := fun same => oneLine (same ▸ member)
    simpa using different

/-- A line in which something stands before an attribute that is the rest of it. -/
def attributeLine (opening key value : Text) : Text := opening ++ (key ++ (value ++ "\n".toList))

/-- What stands before an attribute: a keyword, and not yet the attribute. -/
structure Opens (keyword key opening : Text) : Prop where
  begins : keyword <+: opening
  absent : ¬ key <:+: opening
  oneLine : '\n' ∉ opening

theorem capture_name {opening name : Text} (opens : Opens "=ybegin".toList "name=".toList opening)
    (oneLine : '\n' ∉ name) :
    capture "name=".toList restOfLine (attributeLine opening "name=".toList name) = some name := by
  have found : capture "name=".toList restOfLine ("name=".toList ++ (name ++ "\n".toList)) = some name :=
    @capture_found "ame=".toList restOfLine 'n' _ _ (restOfLine_line oneLine)
  rw [attributeLine, capture_append opens.absent (by decide), found]

theorem capture_crc32 {closing crc32 : Text} (closes : Opens "=yend".toList "crc32=".toList closing)
    (oneLine : '\n' ∉ crc32) :
    capture "crc32=".toList restOfLine (attributeLine closing "crc32=".toList crc32) = some crc32 := by
  have found : capture "crc32=".toList restOfLine ("crc32=".toList ++ (crc32 ++ "\n".toList)) = some crc32 :=
    @capture_found "rc32=".toList restOfLine 'c' _ _ (restOfLine_line oneLine)
  rw [attributeLine, capture_append closes.absent (by decide), found]

/-! ### What `encode_to_file` writes -/

theorem headerLine_eq (size name : Text) : headerLine size name =
    attributeLine ("=ybegin size=".toList ++ (size ++ " line=128 ".toList)) "name=".toList name := by
  have assoc : ∀ a b c d e f : Text, a ++ b ++ c ++ d ++ e ++ f = a ++ (b ++ c) ++ (d ++ (e ++ f)) := by simp
  exact assoc _ _ _ _ _ _

theorem trailerLine_eq (crc32 : Text) :
    trailerLine crc32 = attributeLine "=yend size=312860 ".toList "crc32=".toList crc32 := by
  have assoc : ∀ a b c d : Text, a ++ b ++ c ++ d = a ++ (b ++ (c ++ d)) := by simp
  exact assoc _ _ _ _

theorem opens_header {size : Text} (isNumber : ∀ digit ∈ size, digit.isDigit = true) :
    Opens "=ybegin".toList "name=".toList ("=ybegin size=".toList ++ (size ++ " line=128 ".toList)) where
  begins := (show "=ybegin".toList <+: "=ybegin size=".toList by decide).trans (List.prefix_append _ _)
  absent inside := by
    have member : 'a' ∈ "=ybegin size=".toList ++ (size ++ " line=128 ".toList) := inside.subset (by decide)
    rcases List.mem_append.mp member with opening | rest
    · exact absurd opening (by decide)
    · rcases List.mem_append.mp rest with digit | ending
      · exact absurd (isNumber 'a' digit) (by decide)
      · exact absurd ending (by decide)
  oneLine member := by
    rcases List.mem_append.mp member with opening | rest
    · exact absurd opening (by decide)
    · rcases List.mem_append.mp rest with digit | ending
      · exact absurd (isNumber '\n' digit) (by decide)
      · exact absurd ending (by decide)

theorem opens_trailer : Opens "=yend".toList "crc32=".toList "=yend size=312860 ".toList :=
  ⟨by decide, by decide, by decide⟩

/-! ## Lines of text -/

theorem lineFeed_of_mem_utf8 {text : Text} (member : 10 ∈ utf8 text) : '\n' ∈ text := by
  obtain ⟨char, inside, same⟩ := Utf8Boundaries.exists_of_mem_encode (by decide) member
  have isEnd : char = '\n' := Char.toNat_inj.mp same
  exact isEnd ▸ inside

theorem isLine_utf8 {text : Text} (oneLine : '\n' ∉ text) : IsFileLine (utf8 (text ++ "\n".toList)) :=
  ⟨utf8 text, fun member => oneLine (lineFeed_of_mem_utf8 member), utf8_append _ _⟩

section AttributeLine

variable {keyword key opening value : Text}

theorem isLine_attributeLine (opens : Opens keyword key opening) (keyLine : '\n' ∉ key) (oneLine : '\n' ∉ value) :
    IsFileLine (utf8 (attributeLine opening key value)) := by
  have assoc : attributeLine opening key value = opening ++ (key ++ value) ++ "\n".toList := by
    simp [attributeLine]
  rw [assoc]
  apply isLine_utf8
  simp only [List.mem_append, opens.oneLine, keyLine, oneLine, or_self, not_false_iff]

theorem prefix_attributeLine (opens : Opens keyword key opening) :
    utf8 keyword <+: utf8 (attributeLine opening key value) := by
  obtain ⟨rest, rfl⟩ := opens.begins
  rw [attributeLine, utf8_append, utf8_append, List.append_assoc]
  exact List.prefix_append _ _

end AttributeLine

/-! ## The walk -/

section Walk

variable {yenc : YEnc} {disk : Disk}

theorem decodeLines_skip {front : List Bytes} (noHeader : ∀ line ∈ front, ¬ utf8 "=ybegin".toList <+: line)
    (rest : List Bytes) : decodeLines (front ++ rest) false yenc disk = decodeLines rest false yenc disk := by
  induction front with
  | nil => rfl
  | cons line front inductionHypothesis =>
    rw [List.cons_append, decodeLines, if_neg (noHeader line List.mem_cons_self)]
    exact inductionHypothesis fun other inside => noHeader other (List.mem_cons_of_mem _ inside)

theorem putLine_nil (yenc : YEnc) : yenc.putLine [] = yenc := by
  cases yenc with
  | mk filepath outputpath filename filesize line crc32 newFile => cases newFile <;> simp [putLine]

theorem putLine_putLine (front back : Bytes) (yenc : YEnc) :
    (yenc.putLine front).putLine back = yenc.putLine (front ++ back) := by
  simp only [putLine, Option.map_map]
  congr 2
  funext file
  simp

theorem decodeLines_body {lines : List Bytes} (noTrailer : ∀ line ∈ lines, ¬ utf8 "=yend".toList <+: line)
    (rest : List Bytes) : decodeLines (lines ++ rest) true yenc disk =
      decodeLines rest true (yenc.putLine (lines.flatMap decodeLine)) disk := by
  induction lines generalizing yenc with
  | nil => rw [List.nil_append, List.flatMap_nil, putLine_nil]
  | cons line lines inductionHypothesis =>
    rw [List.cons_append, decodeLines, if_neg (noTrailer line List.mem_cons_self), List.flatMap_cons, ← putLine_putLine]
    exact inductionHypothesis fun other inside => noTrailer other (List.mem_cons_of_mem _ inside)

theorem match1_utf8 (key : String) (group : Text → Option Text) (text : Text) :
    match1 key group (utf8 text) = .ok (capture key.toList group text) := by
  rw [match1, decodeUtf8_utf8]

/-- A text is read as it is, if its first header makes the new file elsewhere. -/
theorem textRead_of_apart {content : Bytes} {front rest : List Bytes} {header : Bytes}
    (split : eachLine content = front ++ header :: rest)
    (noHeader : ∀ line ∈ front, ¬ utf8 "=ybegin".toList <+: line) (isHeader : utf8 "=ybegin".toList <+: header)
    (apart : yenc.overwrites header = false) : yenc.textRead disk content = content := by
  have before : (eachLine content).takeWhile (fun line => ¬ utf8 "=ybegin".toList <+: line) = front := by
    rw [split, List.takeWhile_append_of_pos, List.takeWhile_cons_of_neg, List.append_nil]
    · exact fun passed => of_decide_eq_true passed isHeader
    · exact fun line inside => decide_eq_true (noHeader line inside)
  unfold textRead
  dsimp only
  rw [before, split, List.drop_left]
  dsimp only
  rw [apart, if_neg Bool.false_ne_true]

/-- A text with some lines, a header, the lines of a file, a trailer and something behind. -/
structure HoldsText (content : Bytes) (opening name closing crc32 : Text) (lines : List Bytes) : Prop where
  header : Opens "=ybegin".toList "name=".toList opening
  trailer : Opens "=yend".toList "crc32=".toList closing
  nameLine : '\n' ∉ name
  crc32Line : '\n' ∉ crc32
  body : ∀ line ∈ lines, IsFileLine line ∧ ¬ utf8 "=yend".toList <+: line
  parts : ∃ (front : List Bytes) (back : Bytes),
    (∀ line ∈ front, IsFileLine line ∧ ¬ utf8 "=ybegin".toList <+: line) ∧
    content = front.flatten ++ (utf8 (attributeLine opening "name=".toList name) ++
      (lines.flatten ++ (utf8 (attributeLine closing "crc32=".toList crc32) ++ back)))

section HoldsText

variable {content : Bytes} {filepath outputpath opening name closing crc32 : Text} {lines : List Bytes}

theorem HoldsText.eachLine (holds : HoldsText content opening name closing crc32 lines) : ∃ front back,
      (∀ line ∈ front, ¬ utf8 "=ybegin".toList <+: line) ∧
        EasyNews.eachLine content = front ++ utf8 (attributeLine opening "name=".toList name) ::
          (lines ++ utf8 (attributeLine closing "crc32=".toList crc32) :: back) := by
  obtain ⟨front, back, frontLines, rfl⟩ := holds.parts
  refine ⟨front, EasyNews.eachLine back, fun line inside => (frontLines line inside).2, ?_⟩
  rw [eachLine_lines fun line inside => (frontLines line inside).1,
    eachLine_append (isLine_attributeLine holds.header (by decide) holds.nameLine),
    eachLine_lines fun line inside => (holds.body line inside).1,
    eachLine_append (isLine_attributeLine holds.trailer (by decide) holds.crc32Line)]

theorem HoldsText.isYenc (holds : HoldsText content opening name closing crc32 lines) : YEnc.isYenc content = true := by
  obtain ⟨front, back, -, rfl⟩ := holds.parts
  have inside : utf8 "=ybegin".toList <:+: utf8 (attributeLine opening "name=".toList name) :=
    (prefix_attributeLine holds.header).isInfix
  exact decide_eq_true ((inside.trans (List.prefix_append _ _).isInfix).trans (List.suffix_append _ _).isInfix)

theorem HoldsText.textRead (holds : HoldsText content opening name closing crc32 lines)
    (apart : outputpath ++ name ≠ filepath) : (new filepath outputpath).textRead disk content = content := by
  obtain ⟨front, back, noHeader, split⟩ := holds.eachLine
  refine textRead_of_apart split noHeader (prefix_attributeLine holds.header) ?_
  simp only [overwrites, new, readOnce, match1_utf8, capture_name holds.header holds.nameLine]
  exact decide_eq_false apart

theorem HoldsText.breakdownHeader (holds : HoldsText content opening name closing crc32 lines)
    (canCreate : disk.creatable (outputpath ++ name) = true) :
    (new filepath outputpath).breakdownHeader (utf8 (attributeLine opening "name=".toList name)) disk =
      .ok ({ new filepath outputpath with
          filename := some name
          filesize := capture "size=".toList oneWord (attributeLine opening "name=".toList name)
          line := capture "line=".toList oneWord (attributeLine opening "name=".toList name)
          newFile := some { path := outputpath ++ name } },
        disk.write (outputpath ++ name) []) := by
  have created : disk.create (outputpath ++ name) = .ok (disk.write (outputpath ++ name) []) := by
    rw [Disk.create, if_pos canCreate]
  simp only [YEnc.breakdownHeader, new, readOnce, match1_utf8, capture_name holds.header holds.nameLine]
  change (disk.create (outputpath ++ name)).bind _ = _
  rw [created]
  rfl

theorem HoldsText.breakdownEndline (holds : HoldsText content opening name closing crc32 lines)
    (unread : yenc.crc32 = none) :
    yenc.breakdownEndline (utf8 (attributeLine closing "crc32=".toList crc32)) =
      .ok { yenc with crc32 := some crc32 } := by
  simp only [YEnc.breakdownEndline, readOnce, unread, match1_utf8, capture_crc32 holds.trailer holds.crc32Line]
  rfl

theorem HoldsText.decode (isFile : disk.files filepath = some content)
    (holds : HoldsText content opening name closing crc32 lines) (apart : outputpath ++ name ≠ filepath)
    (canCreate : disk.creatable (outputpath ++ name) = true) :
    (new filepath outputpath).decode disk =
      .ok ({ new filepath outputpath with
          filename := some name
          filesize := capture "size=".toList oneWord (attributeLine opening "name=".toList name)
          line := capture "line=".toList oneWord (attributeLine opening "name=".toList name)
          crc32 := some crc32
          newFile := some { path := outputpath ++ name, bytes := lines.flatMap decodeLine, closed := true } },
        disk.write (outputpath ++ name) (lines.flatMap decodeLine)) := by
  obtain ⟨front, back, noHeader, allLines⟩ := holds.eachLine
  have isRead : disk.read filepath = .ok content := by rw [Disk.read, isFile]
  have walked : decodeLines (EasyNews.eachLine content) false (new filepath outputpath) disk =
      .ok ({ new filepath outputpath with
          filename := some name
          filesize := capture "size=".toList oneWord (attributeLine opening "name=".toList name)
          line := capture "line=".toList oneWord (attributeLine opening "name=".toList name)
          crc32 := some crc32
          newFile := some { path := outputpath ++ name, bytes := lines.flatMap decodeLine } },
        disk.write (outputpath ++ name) []) := by
    rw [allLines, decodeLines_skip noHeader, decodeLines, if_pos (prefix_attributeLine holds.header),
      holds.breakdownHeader canCreate]
    change decodeLines (lines ++ _) true _ _ = _
    rw [decodeLines_body fun line inside => (holds.body line inside).2, decodeLines,
      if_pos (prefix_attributeLine holds.trailer), holds.breakdownEndline rfl]
    rfl
  have decoded : (new filepath outputpath).decode disk =
      (disk.read filepath).bind fun content =>
        ((new filepath outputpath).decodeContent content disk).bind fun decoded => decoded.1.closeNewFile decoded.2 := rfl
  rw [decoded, isRead, Except.bind, decodeContent, if_pos holds.isYenc, holds.textRead apart, walked,
    ← disk.write_write _ [] (lines.flatMap decodeLine)]
  rfl

end HoldsText

end Walk

end EasyNews.Verified.YEncFiles
