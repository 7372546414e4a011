import EasyNews.Rfc3977

/-! # A server that keeps a current group

The commands a logged-in reader sends, and a server that answers them as RFC 3977 says. The server
is not part of the client: its groups, numbers and articles are arbitrary, and so are the words
behind a status code.
-/

namespace EasyNews

inductive Command where
  | list
  | listGroup (groupName : Text)
  | group (groupName : Text)
  | article (articleId : Text)
  | head (articleId : Text)
deriving DecidableEq, Repr

namespace Command

def text : Command → Text
  | .list => "LIST\n".toList
  | .listGroup groupName => commandLine "LISTGROUP" groupName
  | .group groupName => commandLine "GROUP" groupName
  | .article articleId => commandLine "ARTICLE" articleId
  | .head articleId => commandLine "HEAD" articleId

/-- The argument of a line with the verb. -/
def argument (verb : String) (line : Text) : Option Text :=
  if (verb.toList ++ " ".toList).isPrefixOf line then
    some (line.drop (verb.toList ++ " ".toList).length).dropLast
  else none

/-- The server's reading of a line. -/
def ofText (line : Text) : Option Command :=
  if line = "LIST\n".toList then some .list
  else match argument "LISTGROUP" line, argument "GROUP" line, argument "ARTICLE" line, argument "HEAD" line with
    | some groupName, _, _, _ => some (.listGroup groupName)
    | _, some groupName, _, _ => some (.group groupName)
    | _, _, some articleId, _ => some (.article articleId)
    | _, _, _, some articleId => some (.head articleId)
    | _, _, _, _ => none

theorem argument_commandLine (verb : String) (argument : Text) :
    Command.argument verb (commandLine verb argument) = some argument := by
  have opens : (verb.toList ++ " ".toList).isPrefixOf (commandLine verb argument) = true := by
    rw [List.isPrefixOf_iff_prefix, commandLine, List.append_assoc]
    exact List.prefix_append _ _
  have rest : commandLine verb argument = (verb.toList ++ " ".toList) ++ (argument ++ "\n".toList) := by
    simp [commandLine]
  rw [Command.argument, if_pos opens, rest, List.drop_left]
  simp

theorem argument_of_ne {verb other : String} (apart : ¬ (other.toList ++ " ".toList) <+: (verb.toList ++ " ".toList))
    (apart' : ¬ (verb.toList ++ " ".toList) <+: (other.toList ++ " ".toList)) (argument : Text) :
    Command.argument other (commandLine verb argument) = none := by
  rw [Command.argument, if_neg]
  intro opens
  have here : (verb.toList ++ " ".toList) <+: commandLine verb argument := by
    rw [commandLine, List.append_assoc]
    exact List.prefix_append _ _
  rcases List.prefix_or_prefix_of_prefix here (List.isPrefixOf_iff_prefix.mp opens) with shorter | longer
  · exact apart' shorter
  · exact apart longer

theorem commandLine_ne_list {verb : String} (apart : ¬ (verb.toList ++ " ".toList) <+: "LIST\n".toList)
    (argument : Text) : commandLine verb argument ≠ "LIST\n".toList := by
  intro same
  apply apart
  rw [← same, commandLine, List.append_assoc]
  exact List.prefix_append _ _

theorem ofText_text (command : Command) : ofText command.text = some command := by
  cases command with
  | list => decide
  | listGroup groupName =>
    rw [text, ofText, if_neg (commandLine_ne_list (by decide) _), argument_commandLine]
  | group groupName =>
    rw [text, ofText, if_neg (commandLine_ne_list (by decide) _), argument_commandLine,
      argument_of_ne (by decide) (by decide)]
  | article articleId =>
    rw [text, ofText, if_neg (commandLine_ne_list (by decide) _), argument_commandLine,
      argument_of_ne (by decide) (by decide), argument_of_ne (by decide) (by decide)]
  | head articleId =>
    rw [text, ofText, if_neg (commandLine_ne_list (by decide) _), argument_commandLine,
      argument_of_ne (by decide) (by decide), argument_of_ne (by decide) (by decide),
      argument_of_ne (by decide) (by decide)]

end Command

/-! ## Answers -/

/-- A status line, and the lines of the block behind it when the reply is a multi-line one. -/
structure Answer where
  status : Text
  block : Option (List Text)
deriving DecidableEq, Repr

namespace Answer

/-- The block as it is sent, without its last CR LF. -/
def blockText (lines : List Text) : Text := crlf.render (lines.map dotStuff) ++ terminatorLine

/-- The status line and the block, each without its last CR LF. -/
def fronts (answer : Answer) : List Text :=
  answer.status :: match answer.block with
    | some lines => [blockText lines]
    | none => []

def reads (answer : Answer) : List Read := answer.fronts.map fun front => .ofText (front ++ crlf.symbols)

end Answer

/-- The server's groups and articles. The texts stand behind the codes 215 and 211 of LIST and
    LISTGROUP; the numbers are those of GROUP's 211 line. -/
structure Server where
  list : Text × List Text
  listGroup : Text → Option (Text × List Text)
  /-- The space behind the code is a Character of its own. -/
  listGroupApart : ∀ groupName words lines, listGroup groupName = some (words, lines) → joined words = false
  group : Text → Option (Nat × Nat × Nat)
  article : Option Text → Text → Answer
  head : Option Text → Text → Answer

namespace Server

variable (server : Server)

/-- The words behind 211 in the answer to GROUP. -/
def groupWords (numbers : Nat × Nat × Nat) (groupName : Text) : Text :=
  Nat.toDigits 10 numbers.1 ++ " ".toList ++ Nat.toDigits 10 numbers.2.1 ++ " ".toList ++
    Nat.toDigits 10 numbers.2.2 ++ " ".toList ++ groupName

def noSuchGroup : Answer where
  status := "411 No such newsgroup".toList
  block := none

/-- The answer to a command, and the current group behind it. -/
def answer (current : Option Text) : Command → Answer × Option Text
  | .list => (⟨"215 ".toList ++ server.list.1, some server.list.2⟩, current)
  | .listGroup groupName =>
    match server.listGroup groupName with
    | some (words, lines) => (⟨"211 ".toList ++ words, some lines⟩, some groupName)
    | none => (noSuchGroup, current)
  | .group groupName =>
    match server.group groupName with
    | some numbers => (⟨"211 ".toList ++ groupWords numbers groupName, none⟩, some groupName)
    | none => (noSuchGroup, current)
  | .article articleId => (server.article current articleId, current)
  | .head articleId => (server.head current articleId, current)

theorem joined_groupWords (numbers : Nat × Nat × Nat) (groupName rest : Text) :
    joined (groupWords numbers groupName ++ rest) = false := by
  cases digits : Nat.toDigits 10 numbers.1 with
  | nil => exact absurd digits Nat.toDigits_ne_nil
  | cons digit others =>
    have isDigit : digit.isDigit = true :=
      @Nat.isDigit_of_mem_toDigits 10 numbers.1 digit (by decide) (by decide)
        (digits ▸ List.mem_cons_self)
    rw [groupWords, digits]
    exact joins_of_isDigit isDigit

theorem groupWords_number (numbers : Nat × Nat × Nat) (groupName rest : Text) :
    starts (groupWords numbers groupName ++ rest) "Article Numbers Follow".toList = false := by
  cases digits : Nat.toDigits 10 numbers.1 with
  | nil => exact absurd digits Nat.toDigits_ne_nil
  | cons digit others =>
    have isDigit : digit.isDigit = true :=
      @Nat.isDigit_of_mem_toDigits 10 numbers.1 digit (by decide) (by decide)
        (digits ▸ List.mem_cons_self)
    rw [groupWords, digits]
    exact not_numbers_of_digit isDigit _

/-- The answer to a line. -/
def respond (current : Option Text) (line : Text) : Answer × Option Text :=
  match Command.ofText line with
  | some command => server.answer current command
  | none => (⟨"500 Unknown command".toList, none⟩, current)

@[simp] theorem respond_text (current : Option Text) (command : Command) :
    server.respond current command.text = server.answer current command := by
  rw [respond, Command.ofText_text]

end Server

end EasyNews
