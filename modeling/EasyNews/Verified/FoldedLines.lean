import EasyNews.HeaderBlocks
import EasyNews.ReaderCommands

/-! # Folded header lines

A long field goes on in the next lines, which begin with a space or a tab. `parseHeader` takes
every line for a field of its own and trims its key, so a continuation line writes an entry too. What
the other fields get is decided by the lines of the same key that stand behind and in front of it.
-/

namespace EasyNews.Verified.FoldedLines

open ArticleGetMultipleHeadersCommand

/-! ## Entries -/

/-- The key and the value `parseHeader` makes of a line it does not skip. -/
def entryOfLine (line : Text) : Text × Text :=
  let (key, value) := splitter line ":".toList .caseInsensitive
  (trimmingCharacters isWhitespaceOrNewline key, trimmingCharacters isWhitespaceOrNewline value)

def insertEntry (header : Header) (entry : Text × Text) : Header := header.insert entry.1 entry.2

/-- The value of the last entry with this key. -/
def lastValue (entries : List (Text × Text)) (key : Text) : Option Text := entries.reverse.lookup key

theorem lookup_append (front back : List (Text × Text)) (key : Text) :
    (front ++ back).lookup key = (front.lookup key).or (back.lookup key) := by
  induction front with
  | nil => rfl
  | cons entry front inductionHypothesis =>
    obtain ⟨name, value⟩ := entry
    rw [List.cons_append, List.lookup_cons, List.lookup_cons, inductionHypothesis]
    cases key == name with
    | true => rfl
    | false => rfl

theorem lastValue_append (front back : List (Text × Text)) (key : Text) :
    lastValue (front ++ back) key = (lastValue back key).or (lastValue front key) := by
  rw [lastValue, List.reverse_append, lookup_append]
  rfl

theorem lastValue_singleton (entry : Text × Text) (key : Text) :
    lastValue [entry] key = if key = entry.1 then some entry.2 else none := by
  rw [lastValue, List.reverse_singleton, List.lookup_cons, List.lookup_nil]
  by_cases same : key = entry.1
  · simp [same]
  · have different : (key == entry.1) = false := by simpa using same
    rw [different, if_neg same]

theorem lastValue_eq_none_iff {entries : List (Text × Text)} {key : Text} :
    lastValue entries key = none ↔ key ∉ entries.map Prod.fst := by
  rw [lastValue, List.lookup_eq_none_iff]
  simp only [List.mem_reverse, bne_iff_ne, List.mem_map, not_exists, not_and]
  constructor
  · intro absent entry member same
    exact absent entry member same.symm
  · intro absent entry member same
    exact absent entry member same.symm

theorem foldl_insertEntry_lookup (entries : List (Text × Text)) (key : Text) :
    (entries.foldl insertEntry ∅).lookup key = lastValue entries key := by
  induction entries using List.reverseRecOn with
  | nil => rfl
  | append_singleton entries entry inductionHypothesis =>
    rw [List.foldl_append, lastValue_append, lastValue_singleton, ← inductionHypothesis]
    show ((entries.foldl insertEntry ∅).insert entry.1 entry.2).lookup key = _
    by_cases same : key = entry.1
    · rw [same, AList.lookup_insert, if_pos rfl]
      rfl
    · rw [AList.lookup_insert_ne same, if_neg same]
      rfl

/-! ## Continuation lines -/

/-- A line that continues the field in front of it. -/
structure IsContinuation (line : Text) : Prop where
  isLine : IsLine line
  folded : line.head? = some ' ' ∨ line.head? = some '\t'

theorem starts_cons_of_ne {first symbol : Char} (different : first ≠ symbol) (rest opening : Text) :
    starts (first :: rest) (symbol :: opening) = false := by
  have differs : (symbol == first) = false := by simpa using Ne.symm different
  rw [starts, List.isPrefixOf, differs, Bool.false_and, Bool.false_and]

theorem parseHeaderLine_continuation {line : Text} (isContinuation : IsContinuation line) (header : Header) :
    parseHeaderLine header line = insertEntry header (entryOfLine line) := by
  obtain ⟨first, rest, begins, notDigit⟩ : ∃ first rest, line = first :: rest ∧
      first ≠ '4' ∧ first ≠ '2' ∧ first ≠ '.' := by
    cases line with
    | nil => cases isContinuation.folded with
      | inl space => cases space
      | inr tab => cases tab
    | cons first rest =>
      refine ⟨first, rest, rfl, ?_⟩
      cases isContinuation.folded with
      | inl space =>
        obtain rfl := Option.some.inj space
        decide
      | inr tab =>
        obtain rfl := Option.some.inj tab
        decide
  -- a space or a tab begins neither 430, 221 nor the dot
  obtain ⟨notMissing, notStatus, notTerminator⟩ := notDigit
  have missing : starts line "430 No such article".toList = false := by
    rw [begins]
    exact starts_cons_of_ne notMissing rest _
  have status : starts line "221 ".toList = false := by
    rw [begins]
    exact starts_cons_of_ne notStatus rest _
  have terminator : line ≠ terminatorLine := by
    rw [begins]
    exact fun same => notTerminator (List.cons.inj same).1
  rw [parseHeaderLine, missing, status]
  simp only [terminator, if_false, ne_eq, not_false_eq_true, and_self, if_true, Bool.false_eq_true]
  rfl

theorem entryOfLine_field {field : Text × Text} (isField : IsField field) :
    entryOfLine (fieldLine field) = (field.1, trimmingCharacters isWhitespaceOrNewline field.2) := by
  have trimmedName := trimmingCharacters_of_forall fun char member => (isField.plain char member).2
  rw [entryOfLine, splitter_fieldLine isField]
  exact congrArg (·, _) trimmedName

theorem parseHeaderLine_field {field : Text × Text} (isField : IsField field) (header : Header) :
    parseHeaderLine header (fieldLine field) = insertEntry header (entryOfLine (fieldLine field)) := by
  rw [parseHeaderLine_fieldLine isField, entryOfLine_field isField]
  rfl

/-! ## A header with one folded field -/

/-- The reply to HEAD for some fields, one of which goes on in continuation lines. -/
structure FoldedHeader where
  status : Text
  front : List (Text × Text)
  field : Text × Text
  continuation : List Text
  back : List (Text × Text)
  isStatus : IsStatus status
  areFields : ∀ other ∈ front ++ field :: back, IsField other
  areContinuations : ∀ line ∈ continuation, IsContinuation line

namespace FoldedHeader

variable (header : FoldedHeader)

def lines : List Text :=
  header.front.map fieldLine ++ fieldLine header.field :: (header.continuation ++ header.back.map fieldLine)

/-- The same header without the continuation lines. -/
def unfolded : FoldedHeader :=
  { header with
    continuation := []
    areContinuations := fun _ member => absurd member List.not_mem_nil }

theorem lines_cases {line : Text} (member : line ∈ header.lines) :
    (∃ field, IsField field ∧ line = fieldLine field) ∨ IsContinuation line := by
  simp only [lines, List.mem_append, List.mem_cons, List.mem_map] at member
  have areFields := header.areFields
  simp only [List.mem_append, List.mem_cons] at areFields
  obtain ⟨field, inFront, rfl⟩ | rfl | inContinuation | ⟨field, inBack, rfl⟩ := member
  · exact .inl ⟨field, areFields field (.inl inFront), rfl⟩
  · exact .inl ⟨header.field, areFields _ (.inr (.inl rfl)), rfl⟩
  · exact .inr (header.areContinuations line inContinuation)
  · exact .inl ⟨field, areFields field (.inr (.inr inBack)), rfl⟩

/-- The block as it is on the wire. -/
def block : HeaderBlock where
  status := header.status
  lines := header.lines
  isStatus := header.isStatus
  areLines line member := by
    obtain ⟨field, isField, rfl⟩ | isContinuation := header.lines_cases member
    · exact isField_line isField
    · exact isContinuation.isLine
  unfinished member := by
    obtain ⟨field, -, same⟩ | isContinuation := header.lines_cases member
    · exact fieldLine_ne_terminatorLine field same.symm
    · cases isContinuation.folded with
      | inl space => cases space
      | inr tab => cases tab

/-- The dictionary `parseHeader` makes of it. -/
def dictionary : Header := headerOfText header.block.front

theorem dictionary_eq : header.dictionary = (header.lines.map entryOfLine).foldl insertEntry ∅ := by
  have nonempty : header.lines.filter (· ≠ []) = header.lines := by
    rw [List.filter_eq_self]
    intro line member
    obtain ⟨field, -, rfl⟩ | isContinuation := header.lines_cases member
    · simp [fieldLine]
    · cases isContinuation.folded with
      | inl space => simp [List.ne_nil_of_mem (List.mem_of_mem_head? space)]
      | inr tab => simp [List.ne_nil_of_mem (List.mem_of_mem_head? tab)]
  have parsed : ∀ lines : List Text, (∀ line ∈ lines, line ∈ header.lines) → ∀ start : Header,
      lines.foldl parseHeaderLine start = (lines.map entryOfLine).foldl insertEntry start := by
    intro lines inside
    induction lines with
    | nil => exact fun _ => rfl
    | cons line lines inductionHypothesis =>
      intro start
      have here : parseHeaderLine start line = insertEntry start (entryOfLine line) := by
        obtain ⟨field, isField, rfl⟩ | isContinuation := header.lines_cases (inside line List.mem_cons_self)
        · exact parseHeaderLine_field isField start
        · exact parseHeaderLine_continuation isContinuation start
      rw [List.foldl_cons, List.map_cons, List.foldl_cons, here]
      exact inductionHypothesis (fun other member => inside other (List.mem_cons_of_mem _ member)) _
  rw [dictionary, HeaderBlock.headerOfText_front]
  change (header.lines.filter (· ≠ [])).foldl parseHeaderLine ∅ = _
  rw [nonempty, parsed header.lines (fun _ member => member)]

def frontEntries : List (Text × Text) := header.front.map (entryOfLine ∘ fieldLine)

def foldedEntries : List (Text × Text) := header.continuation.map entryOfLine

def backEntries : List (Text × Text) := header.back.map (entryOfLine ∘ fieldLine)

/-- For a field other than the continued one, the lines behind the fold decide before the
    continuation lines, and these before the lines in front. -/
theorem lookup_dictionary {name : Text} (other : name ≠ header.field.1) :
    header.dictionary.lookup name =
      (lastValue header.backEntries name).or
        ((lastValue header.foldedEntries name).or (lastValue header.frontEntries name)) := by
  have isField := header.areFields header.field (by simp)
  have continued : lastValue [entryOfLine (fieldLine header.field)] name = none := by
    rw [entryOfLine_field isField, lastValue_singleton, if_neg other]
  have parts : header.lines.map entryOfLine =
      header.frontEntries ++ ([entryOfLine (fieldLine header.field)] ++
        (header.foldedEntries ++ header.backEntries)) := by
    simp [lines, frontEntries, foldedEntries, backEntries]
  rw [dictionary_eq, foldl_insertEntry_lookup, parts]
  rw [lastValue_append, lastValue_append, lastValue_append, continued]
  rw [Option.or_none, Option.or_assoc]

theorem unfolded_foldedEntries : header.unfolded.foldedEntries = [] := rfl

theorem backEntries_keys : header.backEntries.map Prod.fst = header.back.map Prod.fst := by
  rw [backEntries, List.map_map]
  apply List.map_congr_left
  intro field member
  have isField := header.areFields field (by simp [member])
  show (entryOfLine (fieldLine field)).1 = field.1
  rw [entryOfLine_field isField]

/-! ## What the fold disturbs -/

/-- The fields of two records that come from other header fields than `continued`. -/
structure AlikeBut (continued : Text) (record other : NewsGroupArticle) : Prop where
  subject : continued ≠ "Subject".toList → record.subject = other.subject
  contentType : continued ≠ "Content-Type".toList → record.contentType = other.contentType
  date : continued ≠ "Date".toList → record.date = other.date
  size : continued ≠ "Bytes".toList → continued ≠ "X-Received-Bytes".toList → record.size = other.size

/-- The continuation lines change no field but their own: not in the dictionary, and not in the
    record it is written into. -/
structure Undisturbed : Prop where
  inDictionary : ∀ name, IsFieldName name → name ≠ header.field.1 →
    header.dictionary.lookup name = header.unfolded.dictionary.lookup name
  inRecord : ∀ dateFormatter article,
    AlikeBut header.field.1 (writeHeader dateFormatter header.dictionary article)
      (writeHeader dateFormatter header.unfolded.dictionary article)

/-- What a continuation line writes under another field's name is overwritten by a field behind
    it, or is what a field in front has written before. -/
def Harmless : Prop :=
  ∀ name value, IsFieldName name → name ≠ header.field.1 → lastValue header.foldedEntries name = some value →
    name ∈ header.back.map Prod.fst ∨ lastValue header.frontEntries name = some value

theorem alikeBut_writeHeader
    (same : ∀ name, IsFieldName name → name ≠ header.field.1 →
      header.dictionary.lookup name = header.unfolded.dictionary.lookup name)
    (dateFormatter : Text → Text → Option Date) (article : NewsGroupArticle) :
    AlikeBut header.field.1 (writeHeader dateFormatter header.dictionary article)
      (writeHeader dateFormatter header.unfolded.dictionary article) where
  subject other := by
    rw [writeHeader_eq, writeHeader_eq]
    exact same _ (by decide) (Ne.symm other)
  contentType other := by
    rw [writeHeader_eq, writeHeader_eq]
    exact same _ (by decide) (Ne.symm other)
  date other := by
    rw [writeHeader_eq, writeHeader_eq, same _ (by decide) (Ne.symm other)]
  size notBytes notReceived := by
    rw [writeHeader_eq, writeHeader_eq, same _ (by decide) (Ne.symm notBytes)]
    rw [same _ (by decide) (Ne.symm notReceived)]

end FoldedHeader

/-! ## A fold that writes another field's value -/

/-- The trace field of a posted article, folded before a text of the poster's choice. -/
def forgedSubject : FoldedHeader where
  status := "7 <x>".toList
  front := [("Subject".toList, " holiday".toList)]
  field := ("X-Trace".toList, " posted".toList)
  continuation := ["\tSubject: forged".toList]
  back := []
  isStatus := by decide
  areFields := by
    intro field member
    simp only [List.cons_append, List.nil_append, List.mem_cons, List.not_mem_nil, or_false] at member
    cases member with
    | inl subject =>
      subst subject
      exact ⟨by decide, by decide, by decide⟩
    | inr trace =>
      subst trace
      exact ⟨by decide, by decide, by decide⟩
  areContinuations := by
    intro line member
    rw [List.mem_singleton] at member
    subst member
    exact ⟨by decide, .inr rfl⟩

end EasyNews.Verified.FoldedLines
