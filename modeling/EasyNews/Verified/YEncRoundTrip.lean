import EasyNews.Verified.YEncFiles

/-! # From a file to its text and back

The text may be another encoder's, stand between other lines and have its own broken elsewhere. What was lost on
the way shows in the checksum if it is a short burst; a checksum that is written with zeros in front never passes.
-/

namespace EasyNews.Verified.YEncRoundTrip

open YEnc YEncLines YEncFiles

/-! ## What is written -/

/-- The size in the header. An empty file has none. -/
def sizeText (bytes : Bytes) : Text := if bytes = [] then [] else Nat.toDigits 10 bytes.length

def checksum (bytes : Bytes) : Text := (Nat.toDigits 16 (Zlib.crc32 bytes).toNat).map Char.toUpper

theorem size_eq {disk : Disk} {path : Text} {bytes : Bytes} (isFile : disk.files path = some bytes) :
    disk.size path = sizeText bytes := by
  rw [Disk.size, isFile, sizeText]
  cases bytes with
  | nil => rfl
  | cons byte rest => rfl

theorem encodeToFile_eq {disk : Disk} {filepath outputpath outputfilename : Text} {bytes : Bytes}
    (isFile : disk.files filepath = some bytes) (apart : outputpath ++ outputfilename ≠ filepath)
    (canCreate : disk.creatable (outputpath ++ outputfilename) = true) :
    (new filepath outputpath).encodeToFile outputfilename disk =
      .ok (disk.write (outputpath ++ outputfilename)
        (utf8 (headerLine (sizeText bytes) (basename filepath)) ++ (encodedLines bytes).flatten ++
          utf8 (trailerLine (checksum bytes)))) := by
  have created : disk.create (outputpath ++ outputfilename) = .ok (disk.write (outputpath ++ outputfilename) []) := by
    rw [Disk.create, if_pos canCreate]
  have kept : (disk.write (outputpath ++ outputfilename) []).files filepath = some bytes := by
    rw [disk.write_other [] apart.symm, isFile]
  have isRead : (disk.write (outputpath ++ outputfilename) []).read filepath = .ok bytes := by rw [Disk.read, kept]
  have encoded : (new filepath outputpath).encodeToFile outputfilename disk =
      (disk.create (outputpath ++ outputfilename)).bind fun disk =>
        (disk.read filepath).bind fun bytes => (fileCrc32 disk filepath).bind fun crc32 =>
          .ok (disk.write (outputpath ++ outputfilename)
            (utf8 (headerLine (disk.size filepath) (basename filepath)) ++ (encodedLines bytes).flatten ++
              utf8 (trailerLine (crc32.map Char.toUpper)))) := rfl
  rw [encoded, created, Except.bind, isRead, Except.bind, fileCrc32, isRead]
  change Except.ok _ = _
  rw [size_eq kept, Disk.write_write]
  rfl

theorem sizeText_digits (bytes : Bytes) : ∀ digit ∈ sizeText bytes, digit.isDigit = true := by
  intro digit member
  unfold sizeText at member
  split at member
  · cases member
  · exact Nat.isDigit_of_mem_toDigits (by decide) (by decide) member

/-! ## The checksum -/

theorem strip_digits {digits ending : Text} (nonempty : digits ≠ []) (areDigits : ∀ digit ∈ digits, digit ∈ hexDigits)
    (isEnding : ∀ char ∈ ending, isStripped char = true) : strip (digits ++ ending) = digits := by
  have kept : ∀ digit ∈ hexDigits, isStripped digit = false :=
    List.all_iff_forall_prop.mp (by decide)
  have back : (digits ++ ending).rdropWhile isStripped = digits := by
    induction ending using List.reverseRecOn with
    | nil =>
      rw [List.append_nil, List.rdropWhile_eq_self_iff]
      intro _ isLast
      rw [kept _ (areDigits _ (List.getLast_mem nonempty))] at isLast
      cases isLast
    | append_singleton ending char inductionHypothesis =>
      rw [← List.append_assoc, List.rdropWhile_concat_pos _ _ _ (isEnding char (by simp))]
      exact inductionHypothesis fun other inside => isEnding other (List.mem_append_left _ inside)
  have front : (digits ++ ending).dropWhile isStripped = digits ++ ending := by
    cases digits with
    | nil => exact absurd rfl nonempty
    | cons digit digits =>
      rw [List.cons_append, List.dropWhile_cons_of_neg]
      rw [kept digit (areDigits digit List.mem_cons_self)]
      exact Bool.false_ne_true
  rw [strip, trimmingCharacters]
  exact (congrArg _ front).trans back

theorem passCrc32_eq {coder : YEnc} {disk : Disk} {name own : Text} {bytes : Bytes}
    (isName : coder.filename = some name) (isOwn : coder.crc32 = some own)
    (isFile : disk.files (coder.outputpath ++ name) = some bytes) :
    coder.passCrc32 disk =
      .ok (decide (Nat.toDigits 16 (Zlib.crc32 bytes).toNat = strip (own.map Char.toLower))) := by
  have isRead : disk.read (coder.outputpath ++ name) = .ok bytes := by rw [Disk.read, isFile]
  rw [passCrc32, isName]
  dsimp only
  rw [fileCrc32, isRead, isOwn]
  rfl

theorem strip_toLower {own ending : Text} (nonempty : own ≠ []) (ownDigits : ∀ char ∈ own, char.toLower ∈ hexDigits)
    (isEnding : ∀ char ∈ ending, isStripped char = true) :
    strip ((own ++ ending).map Char.toLower) = own.map Char.toLower := by
  have lowerEnding : ending.map Char.toLower = ending := by
    have same : ∀ char ∈ ['\x00', '\t', '\n', '\x0b', '\x0c', '\r', ' '], char.toLower = char :=
      List.all_iff_forall_prop.mp (by decide)
    rw [← List.map_id ending, List.map_map]
    exact List.map_congr_left fun char member => same char (of_decide_eq_true (isEnding char member))
  rw [List.map_append, lowerEnding]
  refine strip_digits (by simpa using nonempty) (fun digit member => ?_) isEnding
  obtain ⟨char, inside, rfl⟩ := List.mem_map.mp member
  exact ownDigits char inside

theorem checksum_digits (bytes : Bytes) :
    (checksum bytes).map Char.toLower = Nat.toDigits 16 (Zlib.crc32 bytes).toNat :=
  map_toLower_map_toUpper (mem_hexDigits _)

/-! ## On the way -/

/-- A text with a file between other lines: a header with the name, which is the rest of its line, lines that carry
    the file, and a trailer that ends in the checksum `own`, with white space behind it or not. -/
structure Travelled (content bytes : Bytes) (name own : Text) : Prop where
  parts : ∃ (opening closing ending : Text) (lines : List Bytes), Carries lines bytes ∧
    (∀ char ∈ ending, isStripped char = true) ∧ HoldsText content opening name closing (own ++ ending) lines

theorem body_of_carries {lines : List Bytes} {bytes : Bytes} (carries : Carries lines bytes) :
    ∀ line ∈ lines, IsFileLine line ∧ ¬ utf8 "=yend".toList <+: line := by
  intro line inside
  refine ⟨carries.areLines line inside, fun begins => carries.noKeyword line inside ?_⟩
  have shorter : utf8 "=y".toList <+: utf8 "=yend".toList := by decide
  exact shorter.trans begins

/-- What is decoded is what the lines carry, and its checksum is compared with the digits of the trailer. -/
theorem Travelled.decode {disk : Disk} {filepath outputpath name own digits : Text} {content bytes : Bytes}
    (travelled : Travelled content bytes name own) (isOwn : own.map Char.toLower = digits) (nonempty : digits ≠ [])
    (areDigits : ∀ digit ∈ digits, digit ∈ hexDigits) (isFile : disk.files filepath = some content)
    (apart : outputpath ++ name ≠ filepath) (canCreate : disk.creatable (outputpath ++ name) = true) :
    ∃ coder, (new filepath outputpath).decode disk = .ok (coder, disk.write (outputpath ++ name) bytes) ∧
      coder.filename = some name ∧
      coder.passCrc32 (disk.write (outputpath ++ name) bytes) =
        .ok (decide (Nat.toDigits 16 (Zlib.crc32 bytes).toNat = digits)) := by
  obtain ⟨opening, closing, ending, lines, carries, isEnding, holds⟩ := travelled.parts
  have stripped : strip ((own ++ ending).map Char.toLower) = digits := by
    rw [strip_toLower ?_ ?_ isEnding, isOwn]
    · rintro rfl
      exact nonempty isOwn.symm
    · exact fun char member => areDigits _ (isOwn ▸ List.mem_map_of_mem member)
  have decodes := holds.decode isFile apart canCreate
  rw [carries.decodes] at decodes
  refine ⟨_, decodes, rfl, ?_⟩
  rw [← stripped]
  exact passCrc32_eq rfl rfl (disk.write_same _ _)

theorem travelled_written (bytes : Bytes) {name : Text} (nameLine : '\n' ∉ name) :
    Travelled (utf8 (headerLine (sizeText bytes) name) ++ (encodedLines bytes).flatten ++
      utf8 (trailerLine (checksum bytes))) bytes name (checksum bytes) where
  parts := by
    have carries := carries_encodedLines bytes
    have ownLine : '\n' ∉ checksum bytes := by
      intro member
      have digit := mem_hexDigits _ _ (checksum_digits bytes ▸ List.mem_map_of_mem member)
      exact absurd digit (by decide)
    refine ⟨_, _, [], encodedLines bytes, carries, fun _ member => absurd member List.not_mem_nil,
      opens_header (sizeText_digits bytes), opens_trailer, nameLine, (List.append_nil _).symm ▸ ownLine, ?_, [], [], ?_, ?_⟩
    · exact body_of_carries carries
    · exact fun _ member => absurd member List.not_mem_nil
    · simp only [List.flatten_nil, List.nil_append, List.append_nil, List.append_assoc, headerLine_eq, trailerLine_eq]

/-! ## Round trips -/

/-- A file that is encoded to a text and decoded from it is the same file under the same name, its checksum
    passes, and no other file has changed. -/
theorem decode_undoes_encode {disk : Disk} {source textFolder outputfilename target : Text} {bytes : Bytes}
    (isFile : disk.files source = some bytes) (newText : textFolder ++ outputfilename ≠ source)
    (newFile : target ++ basename source ≠ textFolder ++ outputfilename) (oneLine : '\n' ∉ basename source)
    (canEncode : disk.creatable (textFolder ++ outputfilename) = true)
    (canDecode : disk.creatable (target ++ basename source) = true) :
    ∃ encoded decoded coder, (new source textFolder).encodeToFile outputfilename disk = .ok encoded ∧
      (new (textFolder ++ outputfilename) target).decode encoded = .ok (coder, decoded) ∧
      decoded.files (target ++ basename source) = some bytes ∧ coder.filename = some (basename source) ∧
      coder.passCrc32 decoded = .ok true ∧
      decoded.files (textFolder ++ outputfilename) = encoded.files (textFolder ++ outputfilename) ∧
      ∀ path, path ≠ textFolder ++ outputfilename → path ≠ target ++ basename source →
        decoded.files path = disk.files path := by
  have travelled := travelled_written bytes oneLine
  have written := disk.write_same (textFolder ++ outputfilename)
    (utf8 (headerLine (sizeText bytes) (basename source)) ++ (encodedLines bytes).flatten ++
      utf8 (trailerLine (checksum bytes)))
  obtain ⟨coder, decodes, isName, passes⟩ := travelled.decode (checksum_digits bytes) Nat.toDigits_ne_nil
    (mem_hexDigits _) written newFile canDecode
  rw [decide_eq_true rfl] at passes
  refine ⟨_, _, coder, encodeToFile_eq isFile newText canEncode, decodes, Disk.write_same _ _ _, isName, passes,
    Disk.write_other _ _ newFile.symm, ?_⟩
  intro path notText notFile
  rw [Disk.write_other _ _ notFile, Disk.write_other _ _ notText]

def oneFile (path : Text) (bytes : Bytes) : Disk where
  files := Function.update (fun _ => none) path (some bytes)
  creatable _ := true
  buffered _ := 8192

theorem oneFile_files (path : Text) (bytes : Bytes) : (oneFile path bytes).files path = some bytes := by
  simp [oneFile]

theorem decode_undoes_encode_picture : ∃ encoded decoded coder,
    (new "pic.jpg".toList "out/".toList).encodeToFile "pic.yenc".toList (oneFile "pic.jpg".toList [214, 0, 19]) =
      .ok encoded ∧
    (new "out/pic.yenc".toList "back/".toList).decode encoded = .ok (coder, decoded) ∧
    decoded.files "back/pic.jpg".toList = some [214, 0, 19] ∧ coder.filename = some "pic.jpg".toList ∧
    coder.passCrc32 decoded = .ok true ∧
    decoded.files "out/pic.yenc".toList = encoded.files "out/pic.yenc".toList ∧
    ∀ path, path ≠ "out/pic.yenc".toList → path ≠ "back/pic.jpg".toList →
      decoded.files path = (oneFile "pic.jpg".toList [214, 0, 19]).files path :=
  @decode_undoes_encode (oneFile "pic.jpg".toList [214, 0, 19]) "pic.jpg".toList "out/".toList "pic.yenc".toList
    "back/".toList [214, 0, 19] (oneFile_files _ _) (by decide) (by decide) (by decide) rfl rfl

/-- It does not matter what stands around the file, what else its header and its trailer say, where its lines are
    broken, but not in an escape, and what else is masked. -/
theorem decode_of_travelled {disk : Disk} {filepath outputpath name own : Text} {content bytes : Bytes}
    (travelled : Travelled content bytes name own)
    (isOwn : own.map Char.toLower = Nat.toDigits 16 (Zlib.crc32 bytes).toNat)
    (isFile : disk.files filepath = some content) (apart : outputpath ++ name ≠ filepath)
    (canCreate : disk.creatable (outputpath ++ name) = true) :
    ∃ coder, (new filepath outputpath).decode disk = .ok (coder, disk.write (outputpath ++ name) bytes) ∧
      coder.passCrc32 (disk.write (outputpath ++ name) bytes) = .ok true := by
  obtain ⟨coder, decodes, -, passes⟩ :=
    travelled.decode isOwn Nat.toDigits_ne_nil (mem_hexDigits _) isFile apart canCreate
  rw [decide_eq_true rfl] at passes
  exact ⟨coder, decodes, passes⟩

/-- Another encoder's text of `[214, 0, 19]`, or of what has become of it, in lines of CR LF. -/
def pictureText (lines : List Bytes) (own : Text) : Bytes :=
  [utf8 "From: a poster\r\n".toList].flatten ++
    (utf8 (attributeLine "=ybegin line=64 size=3 ".toList "name=".toList "pic.jpg\r".toList) ++
      (lines.flatten ++ (utf8 (attributeLine "=yend size=3 ".toList "crc32=".toList (own ++ ['\r'])) ++ [13, 10])))

theorem travelled_picture {lines : List Bytes} {bytes : Bytes} {own : Text} (carries : Carries lines bytes)
    (oneLine : '\n' ∉ own) : Travelled (pictureText lines own) bytes "pic.jpg\r".toList own where
  parts := by
    refine ⟨_, _, ['\r'], lines, carries, List.all_iff_forall_prop.mp (by decide),
      ⟨by decide, by decide, by decide⟩, ⟨by decide, by decide, by decide⟩, by decide, ?_, ?_,
      [utf8 "From: a poster\r\n".toList], [13, 10], ?_, rfl⟩
    · simpa using oneLine
    · exact body_of_carries carries
    · intro line member
      obtain rfl := List.mem_singleton.mp member
      exact ⟨⟨utf8 "From: a poster\r".toList, by decide, by decide⟩, by decide⟩

/-- The lines of `[214, 0, 19]`, broken behind every byte; the second one need not be masked. -/
theorem carries_narrow : Carries [[61, 64, 13, 10], [61, 106, 13, 10], [61, 125, 13, 10]] [214, 0, 19] where
  areLines line member := by
    simp only [List.mem_cons, List.not_mem_nil, or_false] at member
    rcases member with rfl | rfl | rfl
    · exact ⟨[61, 64, 13], by decide, rfl⟩
    · exact ⟨[61, 106, 13], by decide, rfl⟩
    · exact ⟨[61, 125, 13], by decide, rfl⟩
  written := by
    change coding.Writes [0, 42, 61] [61, 64, 61, 106, 61, 125]
    exact .masked (by decide) (.masked (by decide) (.masked (by decide) .nil))
  closed := by decide
  noKeyword := by decide

def intactDisk : Disk :=
  oneFile "in.yenc".toList
    (pictureText [[61, 64, 13, 10], [61, 106, 13, 10], [61, 125, 13, 10]] (checksum [214, 0, 19]))

theorem decode_of_travelled_narrow : ∃ coder,
    (new "in.yenc".toList "out/".toList).decode intactDisk =
      .ok (coder, intactDisk.write ("out/".toList ++ "pic.jpg\r".toList) [214, 0, 19]) ∧
    coder.passCrc32 (intactDisk.write ("out/".toList ++ "pic.jpg\r".toList) [214, 0, 19]) = .ok true :=
  decode_of_travelled (travelled_picture carries_narrow (by decide +kernel)) (checksum_digits _) (oneFile_files _ _)
    (by decide) rfl

/-! ## What the checksum notices -/

theorem bitsOf_injective : Function.Injective Zlib.bitsOf := by
  intro byte other same
  apply UInt8.toBitVec_inj.mp
  apply BitVec.eq_of_getLsbD_eq
  intro place inside
  have bits := congrArg (·[place]?) same
  simpa [Zlib.bitsOf, List.getElem?_range inside] using bits

theorem flatMap_bitsOf_injective : Function.Injective fun bytes : Bytes => bytes.flatMap Zlib.bitsOf := by
  intro bytes
  induction bytes with
  | nil =>
    intro other same
    cases other with
    | nil => rfl
    | cons byte other => simp [Zlib.bitsOf] at same
  | cons byte bytes inductionHypothesis =>
    intro other same
    cases other with
    | nil => simp [Zlib.bitsOf] at same
    | cons first other =>
      obtain ⟨sameFirst, sameRest⟩ := List.append_inj same (by simp [Zlib.bitsOf])
      rw [bitsOf_injective sameFirst, inductionHypothesis sameRest]

theorem length_flatMap_bitsOf (bytes : Bytes) : (bytes.flatMap Zlib.bitsOf).length = 8 * bytes.length := by
  induction bytes with
  | nil => rfl
  | cons byte bytes inductionHypothesis =>
    rw [List.flatMap_cons, List.length_append, inductionHypothesis, List.length_cons]
    simp only [Zlib.bitsOf, List.length_map, List.length_range]
    omega

theorem crc32_ne_of_burst (front back : Bytes) {original changed : Bytes} (length : original.length = changed.length)
    (short : original.length ≤ 4) (different : original ≠ changed) :
    Zlib.crc32 (front ++ changed ++ back) ≠ Zlib.crc32 (front ++ original ++ back) := by
  intro same
  have top : Zlib.polynomial.msb = true := by decide
  have bits := BitVec.not_inj.mp same
  simp only [List.flatMap_append] at bits
  refine CyclicRedundancy.run_ne_of_burst top _ _ _ ?_ ?_ (fun sameBits => different ?_) bits.symm
  · rw [length_flatMap_bitsOf, length_flatMap_bitsOf, length]
  · rw [length_flatMap_bitsOf]
    omega
  · exact flatMap_bitsOf_injective sameBits

/-- If up to four bytes one after another have become others on the way, the checksum does not pass, with zeros in
    front of it or not. -/
theorem short_burst_fails {disk : Disk} {filepath outputpath name own : Text}
    {content front original changed back : Bytes} {zeros : Nat} (length : original.length = changed.length)
    (short : original.length ≤ 4) (different : original ≠ changed)
    (travelled : Travelled content (front ++ changed ++ back) name own)
    (isOwn : own.map Char.toLower =
      List.replicate zeros '0' ++ Nat.toDigits 16 (Zlib.crc32 (front ++ original ++ back)).toNat)
    (isFile : disk.files filepath = some content) (apart : outputpath ++ name ≠ filepath)
    (canCreate : disk.creatable (outputpath ++ name) = true) :
    ∃ coder, (new filepath outputpath).decode disk =
        .ok (coder, disk.write (outputpath ++ name) (front ++ changed ++ back)) ∧
      coder.passCrc32 (disk.write (outputpath ++ name) (front ++ changed ++ back)) = .ok false := by
  obtain ⟨coder, decodes, -, passes⟩ := travelled.decode isOwn
    (List.append_ne_nil_of_right_ne_nil _ Nat.toDigits_ne_nil) (padded_digits zeros _) isFile apart canCreate
  have fails := crc32_ne_of_burst front back length short different
  rw [decide_eq_false fun same => fails (BitVec.eq_of_toNat_eq (eq_of_toDigits_eq_padded same))] at passes
  exact ⟨coder, decodes, passes⟩

theorem carries_changed : Carries [[61, 64, 43, 13, 10], [61, 125, 13, 10]] ([214] ++ [1] ++ [19]) := by
  refine carries_of_encode (fun line member => ?_) (by decide) (by decide)
  simp only [List.mem_cons, List.not_mem_nil, or_false] at member
  rcases member with rfl | rfl
  · exact ⟨[61, 64, 43, 13], by decide, rfl⟩
  · exact ⟨[61, 125, 13], by decide, rfl⟩

def changedDisk : Disk :=
  oneFile "in.yenc".toList (pictureText [[61, 64, 43, 13, 10], [61, 125, 13, 10]] (checksum [214, 0, 19]))

theorem short_burst_fails_changed : ∃ coder,
    (new "in.yenc".toList "out/".toList).decode changedDisk =
      .ok (coder, changedDisk.write ("out/".toList ++ "pic.jpg\r".toList) ([214] ++ [1] ++ [19])) ∧
    coder.passCrc32 (changedDisk.write ("out/".toList ++ "pic.jpg\r".toList) ([214] ++ [1] ++ [19])) = .ok false :=
  @short_burst_fails changedDisk _ _ _ (checksum [214, 0, 19]) _ [214] [0] [1] [19] 0 rfl (by decide) (by decide)
    (travelled_picture carries_changed (by decide +kernel))
    (by simp only [checksum_digits, List.replicate_zero, List.nil_append, List.cons_append]) (oneFile_files _ _)
    (by decide) rfl

/-- The checksum with all of its eight digits. -/
def eightDigits (bytes : Bytes) : Text :=
  let digits := Nat.toDigits 16 (Zlib.crc32 bytes).toNat
  List.replicate (8 - digits.length) '0' ++ digits

theorem eightDigits_digits (bytes : Bytes) : ∀ digit ∈ eightDigits bytes, digit ∈ hexDigits := padded_digits _ _

/-- A trailer with all eight digits passes exactly if the first of them is not zero. -/
theorem eight_digits_pass_iff {disk : Disk} {filepath outputpath name own : Text} {content bytes : Bytes}
    (travelled : Travelled content bytes name own) (isOwn : own.map Char.toLower = eightDigits bytes)
    (isFile : disk.files filepath = some content) (apart : outputpath ++ name ≠ filepath)
    (canCreate : disk.creatable (outputpath ++ name) = true) :
    ∃ coder, (new filepath outputpath).decode disk = .ok (coder, disk.write (outputpath ++ name) bytes) ∧
      coder.passCrc32 (disk.write (outputpath ++ name) bytes) =
        .ok (decide (2 ^ 28 ≤ (Zlib.crc32 bytes).toNat)) := by
  obtain ⟨coder, decodes, -, passes⟩ := travelled.decode isOwn
    (List.append_ne_nil_of_right_ne_nil _ Nat.toDigits_ne_nil) (eightDigits_digits bytes) isFile apart canCreate
  refine ⟨coder, decodes, passes.trans (congrArg _ (decide_eq_decide.mpr ?_))⟩
  -- the text is the number's own if there is no zero in front
  have small : (Zlib.crc32 bytes).toNat < 16 ^ 8 := (Zlib.crc32 bytes).isLt
  have atMost := (@Nat.length_toDigits_le_iff 16 (Zlib.crc32 bytes).toNat 8 (by decide) (by decide)).mpr small
  rw [show 2 ^ 28 = 16 ^ 7 by decide, ← length_toDigits_eq small, eightDigits]
  constructor
  · intro same
    have lengths := congrArg List.length same
    rw [List.length_append, List.length_replicate] at lengths
    omega
  · intro full
    rw [full]
    rfl

def paddedDisk : Disk :=
  oneFile "in.yenc".toList
    (pictureText [[61, 64, 13, 10], [61, 106, 13, 10], [61, 125, 13, 10]] (eightDigits [214, 0, 19]))

theorem eight_digits_pass_iff_narrow : ∃ coder,
    (new "in.yenc".toList "out/".toList).decode paddedDisk =
      .ok (coder, paddedDisk.write ("out/".toList ++ "pic.jpg\r".toList) [214, 0, 19]) ∧
    coder.passCrc32 (paddedDisk.write ("out/".toList ++ "pic.jpg\r".toList) [214, 0, 19]) =
      .ok (decide (2 ^ 28 ≤ (Zlib.crc32 [214, 0, 19]).toNat)) :=
  @eight_digits_pass_iff paddedDisk _ _ _ (eightDigits [214, 0, 19]) _ _
    (travelled_picture carries_narrow fun member => absurd (eightDigits_digits _ _ member) (by decide))
    (map_toLower (eightDigits_digits _)) (oneFile_files _ _) (by decide) rfl

end EasyNews.Verified.YEncRoundTrip
