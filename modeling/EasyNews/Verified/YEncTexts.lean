import EasyNews.Verified.YEncRoundTrip

/-! # Which texts are written, and which are read

The encoders write lines that a news server takes as they are. The decoder makes a file of whatever stands
behind the first header, with or without a trailer, and fails on everything else.
-/

namespace EasyNews.Verified.YEncTexts

open YEnc YEncLines YEncFiles YEncRoundTrip

/-! ## What is written -/

theorem length_buffers {fuel : Nat} {bytes : Bytes} (enough : bytes.length ≤ fuel) :
    (buffers fuel bytes).length = (bytes.length + 127) / 128 := by
  induction fuel generalizing bytes with
  | zero =>
    obtain rfl := List.length_eq_zero_iff.mp (Nat.le_zero.mp enough)
    rfl
  | succ fuel inductionHypothesis =>
    cases bytes with
    | nil => rfl
    | cons byte rest =>
      have later := @inductionHypothesis ((byte :: rest).drop 128) (by
        rw [List.length_drop, List.length_cons]
        rw [List.length_cons] at enough
        omega)
      rw [buffers, List.length_cons, later, List.length_drop, List.length_cons]
      omega

/-- One written line. -/
structure Clean (line : Bytes) : Prop where
  ends : ∃ body : Bytes, line = body ++ [10] ∧ body.length ≤ 256 ∧ ∀ char ∈ body, char ≠ 0 ∧ char ≠ 10 ∧ char ≠ 13
  noKeyword : ¬ utf8 "=y".toList <+: line
  decodes : (decodeLine line).length ≤ 128

theorem clean_of_mem {bytes line : Bytes} (member : line ∈ encodedLines bytes) : Clean line := by
  obtain ⟨buffer, inside, rfl⟩ := mem_encodedLines.mp member
  have short := length_of_mem_buffers inside
  refine ⟨⟨_, rfl, ?_, fun char written => not_special_of_mem written⟩, noKeyword_of_kept (kept_line _), ?_⟩
  · have length := coding.length_encode_le (buffer.map (· + 42))
    rw [List.length_map] at length
    omega
  · rw [decodeLine_eq, coding.decodeFrom_of_kept (kept_line _), map_sub_map_add]
    exact short

/-- `encode` gives a line for every 128 bytes: no nulls, no line ends but its own, nothing that could be taken for a
    header or a trailer. `encode_to_file` writes the same lines between its header and its trailer. -/
theorem encode_is_clean {yenc : YEnc} {disk : Disk} {bytes : Bytes} (isFile : disk.files yenc.filepath = some bytes) :
    ∃ text, yenc.encode disk = .ok text ∧ (∀ line ∈ eachLine text, Clean line) ∧
      (eachLine text).length = (bytes.length + 127) / 128 ∧ (eachLine text).flatMap decodeLine = bytes ∧
      ∀ outputfilename, yenc.outputpath ++ outputfilename ≠ yenc.filepath →
        disk.creatable (yenc.outputpath ++ outputfilename) = true →
        ∃ encoded, yenc.encodeToFile outputfilename disk = .ok encoded ∧
          encoded.files (yenc.outputpath ++ outputfilename) =
            some (utf8 (headerLine (sizeText bytes) (basename yenc.filepath)) ++ text ++
              utf8 (trailerLine (checksum bytes))) := by
  have carries := carries_encodedLines bytes
  have lines : eachLine (encodedLines bytes).flatten = encodedLines bytes := by
    have all := eachLine_lines carries.areLines []
    rwa [List.append_nil, eachLine, List.append_nil] at all
  have isRead : disk.read yenc.filepath = .ok bytes := by rw [Disk.read, isFile]
  refine ⟨(encodedLines bytes).flatten, ?_, ?_, ?_, ?_, ?_⟩
  · rw [encode, isRead]
    rfl
  · rw [lines]
    exact fun line member => clean_of_mem member
  · rw [lines, encodedLines, List.length_map, length_buffers (Nat.le_refl _)]
  · rw [lines, carries.decodes]
  · intro outputfilename apart canCreate
    refine ⟨_, encodeToFile_eq isFile apart canCreate, Disk.write_same _ _ _⟩

theorem encode_is_clean_picture :
    ∃ text, (new "pic.jpg".toList "out/".toList).encode (oneFile "pic.jpg".toList [214, 0, 19]) = .ok text ∧
      (∀ line ∈ eachLine text, Clean line) ∧ (eachLine text).length = 1 ∧
      (eachLine text).flatMap decodeLine = [214, 0, 19] ∧
      ∀ outputfilename, "out/".toList ++ outputfilename ≠ "pic.jpg".toList →
        (oneFile "pic.jpg".toList [214, 0, 19]).creatable ("out/".toList ++ outputfilename) = true →
        ∃ encoded, (new "pic.jpg".toList "out/".toList).encodeToFile outputfilename
            (oneFile "pic.jpg".toList [214, 0, 19]) = .ok encoded ∧
          encoded.files ("out/".toList ++ outputfilename) =
            some (utf8 (headerLine (sizeText [214, 0, 19]) (basename "pic.jpg".toList)) ++ text ++
              utf8 (trailerLine (checksum [214, 0, 19]))) :=
  encode_is_clean (oneFile_files _ _)

/-! ## What is read -/

theorem flatten_eachLine (bytes : Bytes) : (eachLine bytes).flatten = bytes := by
  induction bytes with
  | nil => rfl
  | cons byte rest inductionHypothesis =>
    rw [eachLine]
    split
    · rw [List.flatten_cons, inductionHypothesis, List.singleton_append]
    · split
      · next noLines =>
        rw [noLines] at inductionHypothesis
        rw [← inductionHypothesis]
        rfl
      · next line lines isSplit =>
        rw [isSplit] at inductionHypothesis
        rw [← inductionHypothesis]
        rfl

theorem split_at_mark (mark : Bytes) (lines : List Bytes) : ∃ front back, lines = front ++ back ∧
    (∀ line ∈ front, ¬ mark <+: line) ∧ ∀ line ∈ back.head?, mark <+: line := by
  let unmarked : Bytes → Bool := fun line => decide (¬ mark <+: line)
  refine ⟨lines.takeWhile unmarked, lines.dropWhile unmarked, List.takeWhile_append_dropWhile.symm, ?_, ?_⟩
  · intro line inside
    have passed : unmarked line = true := List.mem_takeWhile_imp inside
    exact of_decide_eq_true passed
  · intro line isFirst
    have stops := List.head?_dropWhile_not unmarked lines
    rw [isFirst] at stops
    simpa [unmarked] using stops

/-- A text of which a file is made: its first header is readable and gives the name; the trailer, if there is one
    behind, is readable, too. -/
structure Readable (content : Bytes) (name : Text) (decoded : Bytes) : Prop where
  lines : ∃ (front : List Bytes) (header : Bytes) (text : Text) (body back : List Bytes),
    eachLine content = front ++ header :: (body ++ back) ∧
    (∀ line ∈ front, ¬ utf8 "=ybegin".toList <+: line) ∧ utf8 "=ybegin".toList <+: header ∧
    decodeUtf8 header = some text ∧ capture "name=".toList restOfLine text = some name ∧
    (∀ line ∈ body, ¬ utf8 "=yend".toList <+: line) ∧
    (∀ trailer ∈ back.head?, utf8 "=yend".toList <+: trailer ∧ (decodeUtf8 trailer).isSome) ∧
    decoded = body.flatMap decodeLine

section Decode

variable {yenc : YEnc} {disk : Disk} {filepath outputpath : Text} {front body back : List Bytes} {header : Bytes}

theorem textRead_isPrefix (yenc : YEnc) (disk : Disk) (content : Bytes) : yenc.textRead disk content <+: content := by
  unfold textRead
  dsimp only
  split
  · exact List.prefix_refl content
  · split
    · exact List.take_prefix _ content
    · exact List.prefix_refl content

theorem isYenc_of_header {content : Bytes} {rest : List Bytes}
    (split : eachLine (yenc.textRead disk content) = front ++ header :: rest)
    (isHeader : utf8 "=ybegin".toList <+: header) : isYenc content = true := by
  have inside : header <:+: yenc.textRead disk content := by
    refine ⟨front.flatten, rest.flatten, ?_⟩
    rw [← flatten_eachLine (yenc.textRead disk content), split, List.flatten_append, List.flatten_cons,
      List.append_assoc]
  exact decide_eq_true ((isHeader.isInfix.trans inside).trans (textRead_isPrefix yenc disk content).isInfix)

theorem decode_of_content {content : Bytes} (isFile : disk.files filepath = some content) :
    (new filepath outputpath).decode disk =
      ((new filepath outputpath).decodeContent content disk).bind fun decoded => decoded.1.closeNewFile decoded.2 := by
  have isRead : disk.read filepath = .ok content := by rw [Disk.read, isFile]
  have decodes : (new filepath outputpath).decode disk =
      (disk.read filepath).bind fun content =>
        ((new filepath outputpath).decodeContent content disk).bind fun decoded => decoded.1.closeNewFile decoded.2 := rfl
  rw [decodes, isRead, Except.bind]

theorem decode_of_noHeader {content : Bytes} (isFile : disk.files filepath = some content)
    (noHeader : ∀ line ∈ eachLine ((new filepath outputpath).textRead disk content), ¬ utf8 "=ybegin".toList <+: line) :
    (new filepath outputpath).decode disk = .error .noMethodError := by
  have unread : (new filepath outputpath).decodeContent content disk = .ok (new filepath outputpath, disk) := by
    have walked := @decodeLines_skip (new filepath outputpath) disk _ noHeader []
    rw [List.append_nil] at walked
    rw [decodeContent, walked]
    exact ite_self _
  rw [decode_of_content isFile, unread]
  rfl

theorem breakdownHeader_new : (new filepath outputpath).breakdownHeader header disk =
    match decodeUtf8 header with
    | none => .error .argumentError
    | some text =>
      match capture "name=".toList restOfLine text with
      | none => .error .typeError
      | some name =>
        if disk.creatable (outputpath ++ name) = true then
          .ok ({ new filepath outputpath with
              filename := some name
              filesize := capture "size=".toList oneWord text
              line := capture "line=".toList oneWord text
              newFile := some { path := outputpath ++ name } }, disk.write (outputpath ++ name) [])
        else .error .systemCallError := by
  cases isText : decodeUtf8 header with
  | none =>
    simp only [breakdownHeader, new, readOnce, match1, isText]
    rfl
  | some text =>
    simp only [breakdownHeader, new, readOnce, match1, isText]
    cases isName : capture "name=".toList restOfLine text with
    | none => rfl
    | some name =>
      change (disk.create (outputpath ++ name)).bind _ = ite _ _ _
      rw [Disk.create]
      split <;> rfl

/-- Behind the header: the lines up to the trailer are decoded, and the trailer is read. -/
theorem decodeLines_back (noTrailer : ∀ line ∈ body, ¬ utf8 "=yend".toList <+: line)
    (isTrailer : ∀ line ∈ back.head?, utf8 "=yend".toList <+: line) :
    decodeLines (body ++ back) true yenc disk =
      match back.head? with
      | none => .ok (yenc.putLine (body.flatMap decodeLine), disk)
      | some trailer =>
        ((yenc.putLine (body.flatMap decodeLine)).breakdownEndline trailer).bind fun yenc => .ok (yenc, disk) := by
  rw [decodeLines_body noTrailer]
  cases back with
  | nil => rfl
  | cons trailer back =>
    rw [decodeLines, if_pos (isTrailer trailer rfl)]
    rfl

theorem decode_of_header {content : Bytes} {rest : List Bytes} (isFile : disk.files filepath = some content)
    (split : eachLine ((new filepath outputpath).textRead disk content) = front ++ header :: rest)
    (noHeader : ∀ line ∈ front, ¬ utf8 "=ybegin".toList <+: line) (isHeader : utf8 "=ybegin".toList <+: header) :
    (new filepath outputpath).decode disk =
      ((new filepath outputpath).breakdownHeader header disk).bind fun begun =>
        (decodeLines rest true begun.1 begun.2).bind fun decoded => decoded.1.closeNewFile decoded.2 := by
  rw [decode_of_content isFile, decodeContent, if_pos (isYenc_of_header split isHeader), split,
    decodeLines_skip noHeader, decodeLines, if_pos isHeader]
  cases (new filepath outputpath).breakdownHeader header disk with
  | error problem => rfl
  | ok begun => rfl

/-- The new file has what the lines up to the trailer decode to, unless the trailer cannot be read. -/
theorem closed_ok_iff {path : Text} {later : Disk} (isOpen : yenc.newFile = some { path }) (unread : yenc.crc32 = none)
    (noTrailer : ∀ line ∈ body, ¬ utf8 "=yend".toList <+: line)
    (isTrailer : ∀ line ∈ back.head?, utf8 "=yend".toList <+: line) :
    (∃ coder, ((decodeLines (body ++ back) true yenc disk).bind fun decoded =>
      decoded.1.closeNewFile decoded.2) = .ok (coder, later)) ↔
      (∀ trailer ∈ back.head?, (decodeUtf8 trailer).isSome) ∧ later = disk.write path (body.flatMap decodeLine) := by
  -- closing writes what has been put, with or without a checksum
  have closes : ∀ crc32, ({ yenc.putLine (body.flatMap decodeLine) with crc32 } : YEnc).closeNewFile disk =
      .ok ({ yenc with
          newFile := some { path, bytes := body.flatMap decodeLine, closed := true }
          crc32 }, disk.write path (body.flatMap decodeLine)) := by
    intro crc32
    simp only [putLine, isOpen, closeNewFile, Option.map_some, List.nil_append]
    rfl
  rw [decodeLines_back noTrailer isTrailer]
  cases back with
  | nil =>
    have closed := closes (yenc.putLine (body.flatMap decodeLine)).crc32
    constructor
    · rintro ⟨coder, decodes⟩
      have same := decodes.symm.trans closed
      exact ⟨fun trailer member => absurd member (Option.not_mem_none trailer), congrArg Prod.snd (Except.ok.inj same)⟩
    · rintro ⟨-, rfl⟩
      exact ⟨_, closed⟩
  | cons trailer back =>
    have unreadYet : (yenc.putLine (body.flatMap decodeLine)).crc32 = none := unread
    simp only [List.head?_cons, Option.mem_some_iff, forall_eq', breakdownEndline, readOnce, unreadYet, match1]
    cases isText : decodeUtf8 trailer with
    | none =>
      constructor
      · rintro ⟨coder, decodes⟩
        cases decodes
      · rintro ⟨readable, -⟩
        cases readable
    | some text =>
      have closed := closes (capture "crc32=".toList restOfLine text)
      constructor
      · rintro ⟨coder, decodes⟩
        have same := decodes.symm.trans closed
        exact ⟨rfl, congrArg Prod.snd (Except.ok.inj same)⟩
      · rintro ⟨-, rfl⟩
        exact ⟨_, closed⟩

/-- `decode` makes a file of exactly the texts that are readable as far as they are read, and changes no other. -/
theorem decode_ok_iff {content : Bytes} {later : Disk} (isFile : disk.files filepath = some content) :
    (∃ coder, (new filepath outputpath).decode disk = .ok (coder, later)) ↔
      ∃ name decoded, Readable ((new filepath outputpath).textRead disk content) name decoded ∧
        disk.creatable (outputpath ++ name) = true ∧ later = disk.write (outputpath ++ name) decoded := by
  constructor
  · rintro ⟨coder, decodes⟩
    obtain ⟨front, rest, split, noHeader, isHeader⟩ := split_at_mark (utf8 "=ybegin".toList)
      (eachLine ((new filepath outputpath).textRead disk content))
    cases rest with
    | nil =>
      rw [List.append_nil] at split
      rw [decode_of_noHeader isFile (split ▸ noHeader)] at decodes
      cases decodes
    | cons header rest =>
      obtain ⟨body, back, rfl, noTrailer, isTrailer⟩ := split_at_mark (utf8 "=yend".toList) rest
      rw [decode_of_header isFile split noHeader (isHeader header rfl), breakdownHeader_new] at decodes
      cases isText : decodeUtf8 header with
      | none =>
        rw [isText] at decodes
        cases decodes
      | some text =>
        cases isName : capture "name=".toList restOfLine text with
        | none =>
          simp only [isText, isName] at decodes
          cases decodes
        | some name =>
          simp only [isText, isName] at decodes
          by_cases canCreate : disk.creatable (outputpath ++ name) = true
          · rw [if_pos canCreate] at decodes
            obtain ⟨trailerText, rfl⟩ := (closed_ok_iff rfl rfl noTrailer isTrailer).mp ⟨coder, decodes⟩
            refine ⟨name, body.flatMap decodeLine, ⟨front, header, text, body, back, split, noHeader,
              isHeader header rfl, isText, isName, noTrailer, ?_, rfl⟩, canCreate, Disk.write_write _ _ _ _⟩
            exact fun trailer member => ⟨isTrailer trailer member, trailerText trailer member⟩
          · rw [if_neg canCreate] at decodes
            cases decodes
  · rintro ⟨name, decoded, ⟨front, header, text, body, back, split, noHeader, isHeader, isText, isName, noTrailer,
      isTrailer, rfl⟩, canCreate, rfl⟩
    rw [decode_of_header isFile split noHeader isHeader, breakdownHeader_new]
    simp only [isText, isName, if_pos canCreate]
    refine (closed_ok_iff rfl rfl noTrailer fun trailer member => (isTrailer trailer member).1).mpr ⟨?_, ?_⟩
    · exact fun trailer member => (isTrailer trailer member).2
    · exact (Disk.write_write _ _ _ _).symm

end Decode

theorem decode_ok_iff_picture :
    (∃ coder, (new "in.yenc".toList "out/".toList).decode changedDisk =
      .ok (coder, changedDisk.write ("out/".toList ++ "pic.jpg\r".toList) [214, 1, 19])) ↔
      ∃ name decoded,
        Readable ((new "in.yenc".toList "out/".toList).textRead changedDisk
          (pictureText [[61, 64, 43, 13, 10], [61, 125, 13, 10]] (checksum [214, 0, 19]))) name decoded ∧
        changedDisk.creatable ("out/".toList ++ name) = true ∧
        changedDisk.write ("out/".toList ++ "pic.jpg\r".toList) [214, 1, 19] =
          changedDisk.write ("out/".toList ++ name) decoded :=
  decode_ok_iff (oneFile_files _ _)

end EasyNews.Verified.YEncTexts
