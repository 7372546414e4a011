import EasyNews.HeaderBlocks
import EasyNews.ReaderRuns

/-! # Rendering a header and parsing it

Fields written as `name: value` lines between a 221 line and the single dot come back from
`parseHeader` as the dictionary that maps each name to its value and nothing else to anything.
-/

namespace EasyNews.Verified.HeaderRoundTrip

open Session

/-! ## Rendering -/

/-- A field with nothing to trim at its value. -/
structure IsTrimmedField (field : Text × Text) : Prop where
  isName : IsFieldName field.1
  isLine : IsLine field.2
  atStart : ∀ char ∈ field.2.head?, isWhitespaceOrNewline char = false
  atEnd : ∀ char ∈ field.2.getLast?, isWhitespaceOrNewline char = false

/-- `name: value` -/
def headerLine (field : Text × Text) : Text := field.1 ++ ": ".toList ++ field.2

/-- The lines of the reply to HEAD for these fields. -/
def headerLines (status : Text) (fields : List (Text × Text)) : List Text :=
  ("221 ".toList ++ status) :: fields.map headerLine ++ [terminatorLine]

/-- For the parser the space behind the colon belongs to the value. -/
def spaced (field : Text × Text) : Text × Text := (field.1, ' ' :: field.2)

theorem headerLine_eq (field : Text × Text) : headerLine field = fieldLine (spaced field) := by
  simp [headerLine, fieldLine, spaced]

theorem isField_spaced {field : Text × Text} (isField : IsTrimmedField field) : IsField (spaced field) where
  isName := isField.isName
  isLine := IsLine.append (by decide : IsLine [' ']) isField.isLine
  unjoined := @joins_ascii ' ' (by decide)

theorem trim_spaced {field : Text × Text} (isField : IsTrimmedField field) :
    trimmingCharacters isWhitespaceOrNewline (spaced field).2 = field.2 := by
  rw [spaced, trimmingCharacters_cons (by decide)]
  exact trimmingCharacters_of_ends isField.atStart isField.atEnd

theorem map_spaced_fst (fields : List (Text × Text)) :
    (fields.map spaced).map Prod.fst = fields.map Prod.fst := by
  rw [List.map_map]
  rfl

theorem lookup_spaced {fields : List (Text × Text)} (areFields : ∀ field ∈ fields, IsTrimmedField field)
    (name : Text) :
    ((fields.map spaced).lookup name).map (trimmingCharacters isWhitespaceOrNewline) = fields.lookup name := by
  induction fields with
  | nil => rfl
  | cons field fields inductionHypothesis =>
    have later := inductionHypothesis fun other member => areFields other (List.mem_cons_of_mem _ member)
    have trimmed := trim_spaced (areFields field List.mem_cons_self)
    obtain ⟨key, value⟩ := field
    rw [List.map_cons, spaced, List.lookup_cons, List.lookup_cons]
    cases name == key with
    | true => exact congrArg some trimmed
    | false => exact later

/-! ## Parsing -/

/-- The dictionary of the rendered lines, with or without the CR LF behind the dot. -/
theorem headerOfText_headerLines {status : Text} (isStatus : IsStatus status) {fields : List (Text × Text)}
    (areFields : ∀ field ∈ fields, IsTrimmedField field) (distinct : (fields.map Prod.fst).Nodup)
    (name : Text) :
    (headerOfText (crlf.render (headerLines status fields))).lookup name = fields.lookup name := by
  have areSpaced : ∀ field ∈ fields.map spaced, IsField field := by
    intro field member
    obtain ⟨original, inFields, rfl⟩ := List.mem_map.mp member
    exact isField_spaced (areFields original inFields)
  have sameText : crlf.render (headerLines status fields) =
      (blockOfFields status (fields.map spaced) isStatus areSpaced).text := by
    have sameLines : fields.map headerLine = (fields.map spaced).map fieldLine := by
      rw [List.map_map]
      exact List.map_congr_left fun field _ => headerLine_eq field
    rw [headerLines, sameLines, crlf.render_append, crlf.render_cons terminatorLine, crlf.render_nil]
    rw [HeaderBlock.text, HeaderBlock.front, List.append_nil, List.append_assoc]
    rfl
  rw [sameText, HeaderBlock.headerOfText_text, headerOfText_blockOfFields]
  rw [lookup_fields areSpaced (by rwa [map_spaced_fst])]
  exact lookup_spaced areFields name

/-- `parseHeader` hands over one dictionary, under the id the reader holds, and then asks for the
    next article; `readAvailableBytes` has cut off the last CR LF of the reply. -/
theorem parseHeader_undoes_rendering {status : Text} (isStatus : IsStatus status) {fields : List (Text × Text)}
    (areFields : ∀ field ∈ fields, IsTrimmedField field) (distinct : (fields.map Prod.fst).Nodup)
    {txt : Text} (isReply : txt = crlf.render (headerLines status fields) ∨
      txt ++ crlf.symbols = crlf.render (headerLines status fields)) :
    ∃ header : Header, (∀ name, header.lookup name = fields.lookup name) ∧
      (∀ {δ : Type} (delegate : NewsReaderDelegate δ) (session : Session δ),
        session.parseHeader delegate txt =
          (session.call delegate (.articleHeader session.reader.articleId header)).call delegate
            (.notification .nextArticle)) ∧
      ∀ session : Session Unit, (session.parseHeader .silent txt).callbacks =
        session.callbacks ++ [.articleHeader session.reader.articleId header, .notification .nextArticle] := by
  refine ⟨headerOfText txt, fun name => ?_, fun _ _ => rfl, fun session => ?_⟩
  · -- the line end that the delivery cut off makes no difference to the lines
    have sameDictionary : headerOfText txt = headerOfText (crlf.render (headerLines status fields)) := by
      cases isReply with
      | inl whole => rw [whole]
      | inr cut =>
        rw [← cut, headerOfText, headerOfText, split, split]
        rw [crlf.fields_append_symbols]
    rw [sameDictionary]
    exact headerOfText_headerLines isStatus areFields distinct name
  · rw [parseHeader, call_silent, call_silent]
    simp

def colonFields : List (Text × Text) :=
  [("Subject".toList, "Re: a (1/2): b".toList), ("X-Empty".toList, [])]

theorem parseHeader_undoes_rendering_colons :
    ∃ header : Header, (∀ name, header.lookup name = colonFields.lookup name) ∧
      (∀ {δ : Type} (delegate : NewsReaderDelegate δ) (session : Session δ),
        session.parseHeader delegate
            "221 7 <x>\r\nSubject: Re: a (1/2): b\r\nX-Empty: \r\n.".toList =
          (session.call delegate (.articleHeader session.reader.articleId header)).call delegate
            (.notification .nextArticle)) ∧
      ∀ session : Session Unit,
        (session.parseHeader .silent
            "221 7 <x>\r\nSubject: Re: a (1/2): b\r\nX-Empty: \r\n.".toList).callbacks =
          session.callbacks ++ [.articleHeader session.reader.articleId header, .notification .nextArticle] := by
  have areFields : ∀ field ∈ colonFields, IsTrimmedField field := by
    intro field member
    simp only [colonFields, List.mem_cons, List.not_mem_nil, or_false] at member
    cases member with
    | inl subject =>
      subst subject
      exact ⟨by decide, by decide, by simp; decide, by simp; decide⟩
    | inr empty =>
      subst empty
      exact ⟨by decide, by decide, by simp, by simp⟩
  have isStatus : IsStatus "7 <x>".toList := by decide
  exact parseHeader_undoes_rendering isStatus areFields (by decide) (.inr (by decide))

end EasyNews.Verified.HeaderRoundTrip
