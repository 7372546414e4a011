import EasyNews.ReaderClients

/-! # Alike clients

A reader looks at its client through the requests the client makes. Two clients that ask for the same as
long as their states are alike have readers that do the same, whatever the server sends.

* `Session.Agree.readStep` — a read of both leaves readers, traces and states in agreement.
-/

namespace EasyNews

variable {δ ε : Type} {first : Client δ} {second : Client ε} {alike : δ → ε → Prop}

structure Client.Alike (first : Client δ) (second : Client ε) (alike : δ → ε → Prop) : Prop where
  asks : ∀ callback delegate other isOpen connected, alike delegate other →
    (first.react callback delegate isOpen connected).2 = (second.react callback other isOpen connected).2
  stays : ∀ callback delegate other isOpen connected, alike delegate other →
    alike (first.react callback delegate isOpen connected).1 (second.react callback other isOpen connected).1

namespace Session

structure Agree (alike : δ → ε → Prop) (session : Session δ) (other : Session ε) : Prop where
  reader : session.reader = other.reader
  trace : session.trace = other.trace
  delegates : alike session.delegate other.delegate

variable {session : Session δ} {other : Session ε}

namespace Agree

theorem update (agree : session.Agree alike other) (change : NewsReader → NewsReader) :
    (session.update change).Agree alike (other.update change) :=
  ⟨congrArg change agree.reader, agree.trace, agree.delegates⟩

theorem setResponse (agree : session.Agree alike other) (response : Text) :
    (session.setResponse response).Agree alike (other.setResponse response) := agree.update _

theorem log (agree : session.Agree alike other) (effect : Effect) :
    (session.log effect).Agree alike (other.log effect) :=
  ⟨agree.reader, congrArg (· ++ [effect]) agree.trace, agree.delegates⟩

theorem assign (agree : session.Agree alike other) {delegate : δ} {otherDelegate : ε}
    (delegates : alike delegate otherDelegate) : (session.assign delegate).Agree alike (other.assign otherDelegate) :=
  ⟨agree.reader, agree.trace, delegates⟩

theorem expects (agree : session.Agree alike other) (operation : Operation) :
    session.expects operation = other.expects operation := by
  rw [Session.expects, Session.expects, agree.reader]

theorem eq_reframe (agree : session.Agree alike other) : other = session.reframe [] other.delegate := by
  cases other
  obtain ⟨rfl, rfl, -⟩ := agree
  rfl

theorem send (agree : session.Agree alike other) (command : Text) :
    (session.send command).Agree alike (other.send command) := by
  rw [agree.eq_reframe, send_reframe]
  exact ⟨rfl, rfl, by rw [send_delegate]; exact agree.delegates⟩

theorem request (agree : session.Agree alike other) (request : Request) :
    (session.request request).Agree alike (other.request request) := by
  rw [agree.eq_reframe, request_reframe]
  exact ⟨rfl, rfl, by rw [request_delegate]; exact agree.delegates⟩

theorem requests (agree : session.Agree alike other) (requests : List Request) :
    (requests.foldl Session.request session).Agree alike (requests.foldl Session.request other) := by
  induction requests generalizing session other with
  | nil => exact agree
  | cons request requests inductionHypothesis => exact inductionHypothesis (agree.request request)

theorem openStreams (agree : session.Agree alike other) (created : Bool) :
    (session.openStreams created).Agree alike (other.openStreams created) := by
  rw [agree.eq_reframe, openStreams_reframe]
  exact ⟨rfl, rfl, by rw [openStreams_delegate]; exact agree.delegates⟩

section Alike

variable (clients : first.Alike second alike)

include clients

theorem call (agree : session.Agree alike other) (callback : Callback) :
    (session.call first.delegate callback).Agree alike (other.call second.delegate callback) := by
  have asks := clients.asks callback session.delegate other.delegate other.reader.isOpen other.reader.connected
    agree.delegates
  have stays := clients.stays callback session.delegate other.delegate other.reader.isOpen other.reader.connected
    agree.delegates
  rw [← agree.reader] at asks stays
  have assigned := (agree.log (.called callback)).assign stays
  have asked := assigned.requests (first.react callback session.delegate session.reader.isOpen
    session.reader.connected).2
  have sides : other.call second.delegate callback =
      (first.react callback session.delegate session.reader.isOpen session.reader.connected).2.foldl Session.request
        ((other.log (.called callback)).assign
          (second.react callback other.delegate session.reader.isOpen session.reader.connected).1) := by
    rw [asks, agree.reader]
    rfl
  rw [sides]
  exact asked

theorem processResponse (agree : session.Agree alike other) (buffer : Text) :
    (session.processResponse first.delegate buffer).Agree alike (other.processResponse second.delegate buffer) := by
  have results := agree.update fun reader => { reader with resultsComing := true, response := [] }
  cases heard : recognise buffer with
  | none => simpa only [Session.processResponse, heard] using agree
  | some reply =>
    cases reply with
    | welcome =>
      simp only [Session.processResponse, heard, agree.reader]
      exact (agree.send _).setResponse []
    | terminator =>
      simp only [Session.processResponse, heard]
      exact agree.call clients _
    | passRequired =>
      simp only [Session.processResponse, heard, agree.reader]
      exact (agree.send _).setResponse []
    | loggedIn =>
      simp only [Session.processResponse, heard]
      exact ((agree.update _).call clients _).setResponse []
    | authenticationFailed =>
      simp only [Session.processResponse, heard]
      exact (agree.call clients _).setResponse []
    | goodbye =>
      simp only [Session.processResponse, heard]
      exact ((agree.request .close).call clients _).setResponse []
    | newsGroupsFollow => simpa only [Session.processResponse, heard] using results
    | articleNumbersFollow => simpa only [Session.processResponse, heard] using results
    | groupSelected =>
      simp only [Session.processResponse, heard, update_reader, agree.reader]
      exact results.send _

theorem deliverArticle (agree : session.Agree alike other) (front : Text) :
    (session.deliverArticle first.delegate front).Agree alike (other.deliverArticle second.delegate front) := by
  have collected := agree.update fun reader => { reader with article := reader.article ++ front ++ crlf.symbols }
  unfold Session.deliverArticle
  simp only [agree.expects, collected.reader]
  split
  · split
    · exact (collected.call clients _).call clients _
    · exact collected
  · exact agree

theorem deliverHeader (agree : session.Agree alike other) (front : Text) :
    (session.deliverHeader first.delegate front).Agree alike (other.deliverHeader second.delegate front) := by
  unfold Session.deliverHeader parseHeader
  simp only [agree.expects, agree.reader]
  split
  · exact (agree.call clients _).call clients _
  · exact agree

theorem deliverArticleIds (agree : session.Agree alike other) (lines : List Text) :
    (session.deliverArticleIds first.delegate lines).Agree alike (other.deliverArticleIds second.delegate lines) := by
  unfold Session.deliverArticleIds
  simp only [agree.expects]
  split
  · split
    · exact (agree.call clients _).call clients _
    · exact agree.call clients _
  · exact agree

theorem deliverGroups (agree : session.Agree alike other) (lines : List Text) :
    (session.deliverGroups first.delegate lines).Agree alike (other.deliverGroups second.delegate lines) := by
  unfold Session.deliverGroups
  simp only [agree.expects]
  split
  · split
    · exact (agree.call clients _).call clients _
    · exact agree.call clients _
  · exact agree

theorem deliver (agree : session.Agree alike other) :
    (session.deliver first.delegate).Agree alike (other.deliver second.delegate) := by
  unfold Session.deliver
  rw [agree.reader]
  generalize splitter other.reader.response = cut
  have carried := agree.setResponse cut.2
  exact (((carried.deliverArticle clients cut.1).deliverHeader clients cut.1).deliverArticleIds clients
    (split cut.1)).deliverGroups clients (split cut.1)

theorem processOwn (agree : session.Agree alike other) :
    (session.processResponse first.delegate session.reader.response).Agree alike
      (other.processResponse second.delegate other.reader.response) := by
  rw [agree.reader]
  exact agree.processResponse clients _

theorem afterRead (agree : session.Agree alike other) (more : Bool) :
    (session.afterRead first.delegate more).Agree alike (other.afterRead second.delegate more) := by
  unfold Session.afterRead
  simp only [agree.reader]
  split
  · exact agree
  · exact agree.processResponse clients _

theorem readStep (agree : session.Agree alike other) (more : Bool) (read : Read) :
    (session.readStep first.delegate more read).Agree alike (other.readStep second.delegate more read) := by
  cases isOpen : session.reader.isOpen with
  | false => rwa [readStep_closed _ _ _ isOpen, readStep_closed _ _ _ (by rw [← agree.reader, isOpen])]
  | true =>
    have otherOpen : other.reader.isOpen = true := by rw [← agree.reader, isOpen]
    unfold Session.readStep
    rw [if_pos isOpen, if_pos otherOpen]
    cases read with
    | failed => exact agree.processOwn clients
    | bytes output =>
      cases output with
      | none =>
        have logged := agree.log (.received none)
        cases more with
        | false => exact logged.processOwn clients
        | true => exact logged
      | some output =>
        have carried := (agree.log (.received (some output))).setResponse (session.reader.response ++ output)
        dsimp only
        rw [log_reader, log_reader, ← agree.reader, ← carried.reader]
        split
        · exact (carried.deliver clients).afterRead clients more
        · exact carried.processResponse clients _

end Alike

end Agree

end Session

end EasyNews
