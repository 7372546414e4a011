import EasyNews.Rfc3977

/-! # The reply to HEAD

A 221 line, header lines and a single dot, as they are on the wire. `headerOfText` makes its
dictionary of the header lines alone.
-/

namespace EasyNews

/-! ## Header lines -/

/-- The wire form of a field. -/
def fieldLine (field : Text × Text) : Text := field.1 ++ ':' :: field.2

/-- A name of ASCII symbols without white space or colon; RFC 5322 allows the printable ones. -/
def IsFieldName (name : Text) : Prop :=
  name ≠ [] ∧ ∀ char ∈ name, char.toNat < 0x80 ∧ char ≠ ':' ∧ isWhitespaceOrNewline char = false

instance : DecidablePred IsFieldName := fun name =>
  have : Decidable (∀ char ∈ name, char.toNat < 0x80 ∧ char ≠ ':' ∧ isWhitespaceOrNewline char = false) :=
    List.decidableBAll _ name
  inferInstanceAs (Decidable (_ ∧ _))

/-- A field with such a name, and an unfolded value that leaves the colon a Character of its own. -/
structure IsField (field : Text × Text) : Prop where
  isName : IsFieldName field.1
  isLine : IsLine field.2
  unjoined : joined field.2 = false

theorem IsField.plain {field : Text × Text} (isField : IsField field) :
    ∀ char ∈ field.1, char ≠ ':' ∧ isWhitespaceOrNewline char = false :=
  fun char member => (isField.isName.2 char member).2

theorem isField_line {field : Text × Text} (isField : IsField field) : IsLine (fieldLine field) := by
  have named : IsLine field.1 := by
    constructor
    · intro member
      have notSpace := (isField.plain _ member).2
      revert notSpace
      decide
    · intro member
      have notSpace := (isField.plain _ member).2
      revert notSpace
      decide
  exact IsLine.append named (IsLine.append (by decide : IsLine [':']) isField.isLine)

theorem fieldLine_ne_terminatorLine (field : Text × Text) : fieldLine field ≠ terminatorLine := by
  intro same
  have colon : ':' ∈ terminatorLine := by
    rw [← same]
    simp [fieldLine]
  revert colon
  decide

theorem toLower_ne_colon {char : Char} (different : char ≠ ':') : char.toLower ≠ Char.toLower ':' := by
  intro same
  change dite _ _ _ = _ at same
  split at same
  · rename_i upper
    have value := congrArg (fun char : Char => char.val.toNat) same
    simp at value
    have low := upper.1
    have high := upper.2
    simp [UInt32.le_iff_toNat_le] at low high
    omega
  · exact different same

theorem trimmingCharacters_of_ends {inSet : Char → Bool} {text : Text}
    (atStart : ∀ char ∈ text.head?, inSet char = false) (atEnd : ∀ char ∈ text.getLast?, inSet char = false) :
    trimmingCharacters inSet text = text := by
  have front : text.dropWhile inSet = text := by
    cases text with
    | nil => rfl
    | cons head tail => simp [atStart head (by simp)]
  have back : text.reverse.dropWhile inSet = text.reverse := by
    cases reversed : text.reverse with
    | nil => rfl
    | cons last rest =>
      have isLast : last ∈ text.getLast? := by
        rw [List.getLast?_eq_head?_reverse, reversed]
        rfl
      simp [atEnd last isLast]
  rw [trimmingCharacters, front, List.rdropWhile, back, List.reverse_reverse]

theorem trimmingCharacters_of_forall {inSet : Char → Bool} {text : Text}
    (outside : ∀ char ∈ text, inSet char = false) : trimmingCharacters inSet text = text :=
  trimmingCharacters_of_ends (fun char first => outside char (List.mem_of_mem_head? first))
    fun char last => outside char (List.mem_of_getLast? last)

theorem trimmingCharacters_cons {inSet : Char → Bool} {char : Char} (inside : inSet char = true) (text : Text) :
    trimmingCharacters inSet (char :: text) = trimmingCharacters inSet text := by
  simp [trimmingCharacters, inside]

theorem splitter_fieldLine {field : Text × Text} (isField : IsField field) :
    splitter (fieldLine field) ":".toList .caseInsensitive = field := by
  have found := Delimited.firstRange_singleton Char.toLower (fun back => !joined back) ':'
    (fun char member => toLower_ne_colon (isField.plain char member).1) (by rw [isField.unjoined]; rfl)
  rw [splitter, rangeOf, fieldLine]
  rw [show ":".toList = [':'] from rfl, found]

/-- No status line is a field: the space behind the code would be in its name. -/
theorem starts_fieldLine {field : Text × Text} (isField : IsField field) (code rest : Text)
    (plain : ':' ∉ code) : starts (fieldLine field) (code ++ ' ' :: rest) = false := by
  rw [Bool.eq_false_iff]
  intro begins
  obtain ⟨tail, same⟩ := isPrefix_of_starts begins
  rw [fieldLine, List.append_assoc, List.cons_append, List.append_eq_append_iff] at same
  rcases same with ⟨between, name, rest⟩ | ⟨between, code, rest⟩
  · cases between with
    | nil => cases rest
    | cons space more =>
      obtain ⟨rfl, -⟩ := List.cons.inj rest
      have spaceInName := (isField.plain ' ' (by rw [name]; simp)).2
      revert spaceInName
      decide
  · cases between with
    | nil => cases rest
    | cons colon more =>
      obtain ⟨rfl, -⟩ := List.cons.inj rest
      exact plain (by rw [code]; simp)

theorem parseHeaderLine_fieldLine {field : Text × Text} (isField : IsField field) (header : Header) :
    parseHeaderLine header (fieldLine field) =
      header.insert field.1 (trimmingCharacters isWhitespaceOrNewline field.2) := by
  have notMissing : starts (fieldLine field) "430 No such article".toList = false :=
    starts_fieldLine isField "430".toList "No such article".toList (by decide)
  have notStatus : starts (fieldLine field) "221 ".toList = false :=
    starts_fieldLine isField "221".toList [] (by decide)
  have notTerminator : fieldLine field ≠ terminatorLine := by
    intro same
    have colon : ':' ∈ terminatorLine := by rw [← same]; simp [fieldLine]
    revert colon
    decide
  rw [parseHeaderLine, notMissing, notStatus, splitter_fieldLine isField]
  simp [notTerminator, trimmingCharacters_of_forall fun char member => (isField.plain char member).2]

theorem parseHeaderLine_status (header : Header) {status : Text} (unjoined : joined status = false) :
    parseHeaderLine header ("221 ".toList ++ status) = header := by
  have notMissing : starts ("221 ".toList ++ status) "430 No such article".toList = false := by
    rfl
  rw [parseHeaderLine, notMissing, starts_append, unjoined]
  simp

theorem parseHeaderLine_missing (header : Header) {rest : Text} (unjoined : joined rest = false) :
    parseHeaderLine header ("430 No such article".toList ++ rest) =
      header.insert "Subject".toList "No such article".toList := by
  rw [parseHeaderLine, starts_append, unjoined]
  rfl

@[simp] theorem parseHeaderLine_terminatorLine (header : Header) :
    parseHeaderLine header terminatorLine = header := by
  have notMissing : starts terminatorLine "430 No such article".toList = false := rfl
  rw [parseHeaderLine, notMissing]
  simp

/-! ## Header blocks -/

/-- A complete reply to HEAD. -/
structure HeaderBlock where
  status : Text
  lines : List Text
  isStatus : IsStatus status
  areLines : ∀ line ∈ lines, IsLine line
  unfinished : terminatorLine ∉ lines

namespace HeaderBlock

variable (block : HeaderBlock)

def front : Text :=
  crlf.render (("221 ".toList ++ block.status) :: block.lines) ++ terminatorLine

def text : Text := block.front ++ crlf.symbols

theorem split_front :
    split block.front =
      ("221 ".toList ++ block.status) :: block.lines.filter (· ≠ []) ++ [terminatorLine] := by
  have isLine : ∀ line ∈ ("221 ".toList ++ block.status) :: block.lines ++ [terminatorLine], IsLine line := by
    simp only [List.mem_append, List.mem_cons, List.not_mem_nil, or_false]
    rintro line ((rfl | member) | rfl)
    · exact IsLine.append (by decide) block.isStatus.1
    · exact block.areLines line member
    · exact terminatorLine_isLine
  have cut := crlf.fields_render fun line member => (isLine line member).unbroken
  rw [crlf.render_append, crlf.render_cons terminatorLine, crlf.render_nil, List.append_nil,
    ← List.append_assoc, crlf.fields_append_symbols] at cut
  rw [split, front, cut, List.filter_append]
  simp [terminatorLine]

theorem headerOfText_front :
    headerOfText block.front = (block.lines.filter (· ≠ [])).foldl parseHeaderLine ∅ := by
  rw [headerOfText, split_front, List.foldl_append, List.foldl_cons, List.foldl_cons,
    parseHeaderLine_terminatorLine, List.foldl_nil, parseHeaderLine_status ∅ block.isStatus.2]

theorem headerOfText_text : headerOfText block.text = headerOfText block.front := by
  rw [headerOfText, split, text, crlf.fields_append_symbols]
  rfl

end HeaderBlock

def blockOfFields (status : Text) (fields : List (Text × Text)) (isStatus : IsStatus status)
    (areFields : ∀ field ∈ fields, IsField field) : HeaderBlock where
  status
  lines := fields.map fieldLine
  isStatus
  areLines line member := by
    obtain ⟨field, inFields, rfl⟩ := List.mem_map.mp member
    exact isField_line (areFields field inFields)
  unfinished member := by
    obtain ⟨field, -, same⟩ := List.mem_map.mp member
    exact fieldLine_ne_terminatorLine field same

theorem headerOfText_blockOfFields (status : Text) (fields : List (Text × Text)) (isStatus : IsStatus status)
    (areFields : ∀ field ∈ fields, IsField field) :
    headerOfText (blockOfFields status fields isStatus areFields).front =
      (fields.map fieldLine).foldl parseHeaderLine ∅ := by
  have nonempty : (fields.map fieldLine).filter (· ≠ []) = fields.map fieldLine := by
    rw [List.filter_eq_self]
    intro line member
    obtain ⟨field, -, rfl⟩ := List.mem_map.mp member
    simp [fieldLine]
  rw [HeaderBlock.headerOfText_front]
  change ((fields.map fieldLine).filter (· ≠ [])).foldl parseHeaderLine ∅ = _
  rw [nonempty]

/-! ## What the dictionary holds -/

/-- A header line writes at most one key, whatever the dictionary held before. -/
theorem parseHeaderLine_lookup (header : Header) (line key : Text) :
    (parseHeaderLine header line).lookup key = header.lookup key ∨
      (parseHeaderLine header line).lookup key = (parseHeaderLine ∅ line).lookup key := by
  have inserted : ∀ name value : Text, (header.insert name value).lookup key = header.lookup key ∨
      (header.insert name value).lookup key = ((∅ : Header).insert name value).lookup key := by
    intro name value
    by_cases same : key = name
    · subst same
      right
      rw [AList.lookup_insert, AList.lookup_insert]
    · left
      rw [AList.lookup_insert_ne same]
  simp only [parseHeaderLine]
  split
  · exact inserted _ _
  · split
    · exact inserted _ _
    · exact .inl rfl

theorem foldl_parseHeaderLine_lookup {lines : List Text} {key value : Text}
    (found : (lines.foldl parseHeaderLine ∅).lookup key = some value) :
    ∃ line ∈ lines, (parseHeaderLine ∅ line).lookup key = some value := by
  induction lines using List.reverseRecOn with
  | nil => simp at found
  | append_singleton lines line inductionHypothesis =>
    rw [List.foldl_append] at found
    rcases parseHeaderLine_lookup (lines.foldl parseHeaderLine ∅) line key with earlier | here
    · obtain ⟨other, member, written⟩ := inductionHypothesis (earlier.symm.trans found)
      exact ⟨other, List.mem_append_left _ member, written⟩
    · exact ⟨line, by simp, here.symm.trans found⟩

/-- Fields with different names: the dictionary maps each name to its trimmed value. -/
theorem lookup_fields {fields : List (Text × Text)} (areFields : ∀ field ∈ fields, IsField field)
    (distinct : (fields.map Prod.fst).Nodup) (name : Text) :
    ((fields.map fieldLine).foldl parseHeaderLine ∅).lookup name =
      (fields.lookup name).map (trimmingCharacters isWhitespaceOrNewline) := by
  have general : ∀ header : Header, (∀ field ∈ fields, header.lookup field.1 = none) →
      ((fields.map fieldLine).foldl parseHeaderLine header).lookup name =
        ((fields.lookup name).map (trimmingCharacters isWhitespaceOrNewline)).or (header.lookup name) := by
    induction fields with
    | nil => simp
    | cons field fields inductionHypothesis =>
      intro header fresh
      obtain ⟨notLater, distinctLater⟩ := List.nodup_cons.mp distinct
      have isField := areFields field List.mem_cons_self
      rw [List.map_cons, List.foldl_cons, parseHeaderLine_fieldLine isField]
      rw [inductionHypothesis (fun other member => areFields other (List.mem_cons_of_mem _ member)) distinctLater]
      · obtain ⟨key, value⟩ := field
        by_cases same : name = key
        · subst same
          have absent : fields.lookup name = none := by
            rw [List.lookup_eq_none_iff]
            intro other member
            rw [bne_iff_ne, ne_eq]
            rintro rfl
            exact notLater (List.mem_map.mpr ⟨other, member, rfl⟩)
          simp [absent]
        · have different : (name == key) = false := by simpa using same
          rw [AList.lookup_insert_ne same, List.lookup_cons, different]
      · intro other member
        rw [AList.lookup_insert_ne]
        · exact fresh other (List.mem_cons_of_mem _ member)
        · exact fun equal => notLater (equal ▸ List.mem_map_of_mem member)
  simpa using general ∅ (by simp)

end EasyNews
