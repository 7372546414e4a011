import EasyNews.ControlReplies

/-! # Cutting a reply into reads and events

A `Cut` of a reply is one way the network may hand it over; `Outcome` is what a session has sent
and handed to its delegate. Of an ASCII text every byte is a character, so every cut of its bytes
cuts the text (`Cut.exists_texts`), and every cut of the text is one of its bytes (`Cut.ofTexts`).
-/

namespace EasyNews

open Session

/-! ## ASCII texts -/

def IsAscii (text : Text) : Prop := ∀ char ∈ text, char.toNat < 128

instance : DecidablePred IsAscii := fun text => List.decidableBAll _ text

theorem joined_of_isAscii {text : Text} (ascii : IsAscii text) : joined text = false := by
  cases text with
  | nil => rfl
  | cons char text =>
    have low := ascii char List.mem_cons_self
    exact joins_ascii (by omega)

theorem utf8_eq_map {text : Text} (ascii : IsAscii text) : utf8 text = text.map Char.toUInt8 := by
  induction text with
  | nil => rfl
  | cons char text inductionHypothesis =>
    have small : char.utf8Size = 1 := by
      rw [Char.utf8Size_eq_one_iff, UInt32.le_iff_toNat_le]
      have bound : char.val.toNat < 128 := ascii char List.mem_cons_self
      have limit : (127 : UInt32).toNat = 127 := rfl
      omega
    have rest := inductionHypothesis fun other inside => ascii other (List.mem_cons_of_mem _ inside)
    rw [utf8] at rest
    rw [utf8, List.flatMap_cons, String.utf8EncodeChar_eq_singleton small, rest]
    rfl

theorem utf8_length {text : Text} (ascii : IsAscii text) : (utf8 text).length = text.length := by
  rw [utf8_eq_map ascii, List.length_map]

theorem exists_flatten_of_map {α β : Type} (convert : α → β) {chunks : List (List β)} {list : List α}
    (same : chunks.flatten = list.map convert) :
    ∃ parts : List (List α), chunks = parts.map (·.map convert) ∧ parts.flatten = list := by
  induction chunks generalizing list with
  | nil => exact ⟨[], rfl, (List.map_eq_nil_iff.mp same.symm).symm⟩
  | cons chunk chunks inductionHypothesis =>
    rw [List.flatten_cons] at same
    obtain ⟨front, back, rfl, rfl, rest⟩ := List.map_eq_append_iff.mp same.symm
    obtain ⟨parts, rfl, rfl⟩ := inductionHypothesis rest.symm
    exact ⟨front :: parts, rfl, rfl⟩

/-! ## Cuts -/

/-- `maxReadLength`. -/
def maxReadLength : Nat := 4096

/-- Nonempty reads of at most `maxReadLength` bytes, grouped into events. -/
structure Cut (reply : Text) where
  events : List (List Bytes)
  inOrder : events.flatten.flatten = utf8 reply
  nonempty : ∀ reads ∈ events, [] ∉ reads
  short : ∀ reads ∈ events, ∀ read ∈ reads, read.length ≤ maxReadLength

theorem Cut.exists_texts {reply : Text} (ascii : IsAscii reply) (cut : Cut reply) :
    ∃ texts : List (List Text), cut.events = texts.map (·.map utf8) ∧ texts.flatten.flatten = reply ∧
      ∀ read ∈ texts.flatten, read.length ≤ maxReadLength := by
  have bytes := cut.inOrder
  rw [utf8_eq_map ascii] at bytes
  obtain ⟨reads, isReads, whole⟩ := exists_flatten_of_map _ bytes
  have asciiRead : ∀ read ∈ reads, IsAscii read := by
    intro read inside char here
    exact ascii char (whole ▸ List.mem_flatten.mpr ⟨read, inside, here⟩)
  -- every byte of the reply is a character, so the cut bytes are cut characters
  have encoded : reads.map (·.map Char.toUInt8) = reads.map utf8 :=
    List.map_congr_left fun read inside => (utf8_eq_map (asciiRead read inside)).symm
  rw [encoded] at isReads
  obtain ⟨texts, isTexts, rfl⟩ := exists_flatten_of_map _ isReads
  refine ⟨texts, isTexts, whole, fun read inside => ?_⟩
  rw [← utf8_length (asciiRead read inside)]
  obtain ⟨event, isEvent, here⟩ := List.mem_flatten.mp inside
  have inEvents : event.map utf8 ∈ cut.events := isTexts ▸ List.mem_map_of_mem isEvent
  exact cut.short _ inEvents _ (List.mem_map_of_mem here)

/-- A cut of the text. -/
def Cut.ofTexts {reply : Text} (ascii : IsAscii reply) (texts : List (List Text))
    (inOrder : texts.flatten.flatten = reply)
    (fits : ∀ read ∈ texts.flatten, read ≠ [] ∧ read.length ≤ maxReadLength) : Cut reply where
  events := texts.map (·.map utf8)
  inOrder := by
    rw [← inOrder, ← List.map_flatten]
    induction texts.flatten with
    | nil => rfl
    | cons read reads inductionHypothesis => simp [inductionHypothesis]
  nonempty reads inside empty := by
    obtain ⟨event, isEvent, rfl⟩ := List.mem_map.mp inside
    obtain ⟨read, here, isEmpty⟩ := List.mem_map.mp empty
    have inRead := List.mem_flatten.mpr ⟨event, isEvent, here⟩
    have asciiRead : IsAscii read := fun char inRead' =>
      ascii char (inOrder ▸ List.mem_flatten.mpr ⟨read, inRead, inRead'⟩)
    have noBytes := congrArg List.length isEmpty
    rw [utf8_length asciiRead, List.length_nil] at noBytes
    exact (fits read inRead).1 (List.eq_nil_of_length_eq_zero noBytes)
  short reads inside bytes isRead := by
    obtain ⟨event, isEvent, rfl⟩ := List.mem_map.mp inside
    obtain ⟨read, here, rfl⟩ := List.mem_map.mp isRead
    have inRead := List.mem_flatten.mpr ⟨event, isEvent, here⟩
    have asciiRead : IsAscii read := fun char inRead' =>
      ascii char (inOrder ▸ List.mem_flatten.mpr ⟨read, inRead, inRead'⟩)
    rw [utf8_length asciiRead]
    exact (fits read inRead).2

/-! ## Outcomes -/

/-- What a session has sent, notified and handed over. -/
structure Outcome where
  commands : List Text
  notifications : List Notification
  articleIds : List Text
  groups : List NewsGroup
  headers : List (Text × Header)
  articles : List Text
deriving DecidableEq

namespace Session

variable {δ : Type}

def notifications (session : Session δ) : List Notification :=
  session.callbacks.filterMap fun
    | .notification notification => some notification
    | _ => none

/-- Article ids and groups come in parts, which are taken together. -/
def outcome (session : Session δ) : Outcome where
  commands := session.commands
  notifications := session.notifications
  articleIds := session.callbacks.flatMap fun
    | .articles articleIds => articleIds
    | _ => []
  groups := session.callbacks.flatMap fun
    | .groups groups => groups
    | _ => []
  headers := session.callbacks.filterMap fun
    | .articleHeader articleId header => some (articleId, header)
    | _ => none
  articles := session.callbacks.filterMap fun
    | .article article => some article
    | _ => none

theorem outcome_congr {session other : Session δ} (commands : session.commands = other.commands)
    (callbacks : session.callbacks = other.callbacks) : session.outcome = other.outcome := by
  rw [outcome, notifications, commands, callbacks, outcome, notifications]

def afterCut (asciiDecode : Bytes → Option Text) {reply : Text} (cut : Cut reply) (session : Session Unit) :
    Session Unit :=
  session.receive .silent (cut.events.map (·.map (Read.ofBytes asciiDecode)))

end Session

/-- However the network cuts the reply, the session's outcome is the same. -/
def CutIndependent (asciiDecode : Bytes → Option Text) (session : Session Unit) (reply : Text) : Prop :=
  ∀ first second : Cut reply,
    (session.afterCut asciiDecode first).outcome = (session.afterCut asciiDecode second).outcome

/-! ## Runs over texts -/

theorem marked_append_singleton {α : Type} (front : List α) (last : α) :
    marked (front ++ [last]) = front.map (fun read => (read, true)) ++ [(last, false)] := by
  induction front with
  | nil => rfl
  | cons read front inductionHypothesis => simp [marked, inductionHypothesis]

theorem markedEvents_append {α : Type} (front back : List (List α)) :
    markedEvents (front ++ back) = markedEvents front ++ markedEvents back := by
  simp [markedEvents]

@[simp] theorem markedEvents_singleton {α : Type} (read : α) : markedEvents [[read]] = [(read, false)] := rfl

variable (asciiDecode : Bytes → Option Text)

/-- The reads of a text, one by one, each with whether another read of its event is behind it. -/
def Session.readTexts (texts : List (Text × Bool)) (session : Session Unit) : Session Unit :=
  session.readSteps .silent (texts.map fun (text, more) => (.ofText text, more))

@[simp] theorem Session.readTexts_nil (session : Session Unit) : session.readTexts [] = session := rfl

@[simp] theorem Session.readTexts_cons (text : Text) (more : Bool) (texts : List (Text × Bool))
    (session : Session Unit) :
    session.readTexts ((text, more) :: texts) = (session.readStep .silent more (.ofText text)).readTexts texts :=
  rfl

theorem Session.readTexts_append (front back : List (Text × Bool)) (session : Session Unit) :
    session.readTexts (front ++ back) = (session.readTexts front).readTexts back := by
  simp [readTexts, readSteps_append]

theorem Session.receive_texts (events : List (List Text)) (session : Session Unit) :
    session.receive .silent (events.map (·.map fun text => Read.ofBytes asciiDecode (utf8 text))) =
      session.readTexts (markedEvents events) := by
  have reads : events.map (·.map fun text => Read.ofBytes asciiDecode (utf8 text)) =
      events.map (·.map Read.ofText) := by
    simp
  rw [reads, receive_eq_readSteps, markedEvents_map, readTexts]
  rfl

theorem afterCut_eq_readTexts {reply : Text} (cut : Cut reply) {texts : List (List Text)}
    (isTexts : cut.events = texts.map (·.map utf8)) (session : Session Unit) :
    session.afterCut asciiDecode cut = session.readTexts (markedEvents texts) := by
  have reads : cut.events.map (·.map (Read.ofBytes asciiDecode)) =
      texts.map (·.map fun text => Read.ofBytes asciiDecode (utf8 text)) := by
    simp [isTexts]
  rw [afterCut, reads, receive_texts]

theorem afterCut_ofTexts {reply : Text} (ascii : IsAscii reply) (texts : List (List Text))
    (inOrder : texts.flatten.flatten = reply)
    (fits : ∀ read ∈ texts.flatten, read ≠ [] ∧ read.length ≤ maxReadLength) (session : Session Unit) :
    session.afterCut asciiDecode (Cut.ofTexts ascii texts inOrder fits) =
      session.readTexts (markedEvents texts) :=
  afterCut_eq_readTexts asciiDecode _ rfl session

end EasyNews
