import EasyNews.Verified.ArticleStore

/-! # Deliveries to the store

A run is any sequence of what the two commands are delivered: lists of ids, and headers. The
records it leads to are the first mentions of their ids (`reached_catalogued`).
-/

namespace EasyNews.Verified.Deliveries

open FirstMention Realm ArticleStore

inductive Delivery where
  | articles (group : GroupRef) (groupName : Text) (articleIds : List Text)
  | articleHeader (groupId articleId : Text) (header : Header)

section Runs

variable (dateFormatter : Text → Text → Option Date) (groups : List NewsGroup)

/-- A command that works on `rbox` gets the delivery. -/
def deliver (rbox : ReaderBox) : Delivery → ReaderBox
  | .articles group groupName articleIds =>
    (ListGroupGetArticleIdsCommand.newsReaderArticles articleIds { rbox, group, groupName }).rbox
  | .articleHeader groupId articleId header =>
    (ArticleGetMultipleHeadersCommand.newsReaderArticleHeader dateFormatter articleId header
      { rbox, articleIds := [articleId], groupId }).rbox

/-- The realm a run leads to from one without articles. -/
def reached (run : List Delivery) : Realm :=
  (run.foldl (deliver dateFormatter) { realm := { groups, articles := [] } }).realm

def requests : Delivery → List (GroupRef × Text)
  | .articles group _ articleIds => requestsOf group articleIds
  | .articleHeader groupId articleId _ =>
    match groups.findIdx? (·.id = some groupId) with
    | some group => requestsOf group [articleId]
    | none => []

def requested (run : List Delivery) : List (GroupRef × Text) := run.flatMap (requests groups)

end Runs

/-! ## The catalogue a run builds -/

variable {dateFormatter : Text → Text → Option Date} {groups : List NewsGroup}

theorem reached_append (dateFormatter : Text → Text → Option Date) (groups : List NewsGroup)
    (front : List Delivery) (delivery : Delivery) :
    ∃ rbox : ReaderBox, rbox.realm = reached dateFormatter groups front ∧
      reached dateFormatter groups (front ++ [delivery]) = (deliver dateFormatter rbox delivery).realm := by
  refine ⟨_, rfl, ?_⟩
  rw [reached, List.foldl_append]
  rfl

theorem requested_append (front : List Delivery) (delivery : Delivery) :
    requested groups (front ++ [delivery]) = requested groups front ++ requests groups delivery := by
  simp [requested]

/-- The records of a realm are the first requests among `seen`. -/
structure Catalogued (groups : List NewsGroup) (seen : List (GroupRef × Text)) (realm : Realm) : Prop where
  entries : realm.entries =
    (firsts Prod.snd [] seen).map fun request => (some request.1, request.2)
  groupIds : realm.groups.map NewsGroup.id = groups.map NewsGroup.id

theorem Catalogued.articleIds {seen : List (GroupRef × Text)} {realm : Realm}
    (catalogued : Catalogued groups seen realm) :
    realm.articleIds = (firsts Prod.snd [] seen).map Prod.snd := by
  rw [articleIds_eq_entries, catalogued.entries, List.map_map]
  rfl

theorem Catalogued.unique {seen : List (GroupRef × Text)} {realm : Realm}
    (catalogued : Catalogued groups seen realm) : realm.UniqueIds := by
  rw [UniqueIds, catalogued.articleIds]
  exact nodup_firsts Prod.snd List.nodup_nil seen

theorem Catalogued.mem_articleIds {seen : List (GroupRef × Text)} {realm : Realm}
    (catalogued : Catalogued groups seen realm) {articleId : Text} :
    articleId ∈ realm.articleIds ↔ articleId ∈ seen.map Prod.snd := by
  rw [catalogued.articleIds, mem_keys_firsts]
  simp

theorem Catalogued.grown {seen : List (GroupRef × Text)} {realm later : Realm}
    (catalogued : Catalogued groups seen realm) {group : GroupRef} {articleIds : List Text} {copies : Nat}
    (grown : Grown realm group articleIds copies later) :
    Catalogued groups (seen ++ requestsOf group articleIds) later := by
  refine ⟨?_, ?_⟩
  · rw [grown.entries, catalogued.entries, fresh, catalogued.articleIds, firsts_append, List.map_append,
      List.nil_append]
  · rw [grown.groups _ fun _ _ => rfl, catalogued.groupIds]

theorem Catalogued.findGroupById {seen : List (GroupRef × Text)} {realm : Realm}
    (catalogued : Catalogued groups seen realm) (groupId : Text) :
    realm.findGroupById groupId = groups.findIdx? (·.id = some groupId) :=
  @findGroupById_congr { groups, articles := [] } realm catalogued.groupIds groupId

/-! ## One delivery -/

theorem deliver_articles_grown (dateFormatter : Text → Text → Option Date) {rbox : ReaderBox}
    (unique : rbox.realm.UniqueIds) (group : GroupRef)
    (groupName : Text) (articleIds : List Text) :
    Grown rbox.realm group articleIds 2
      (deliver dateFormatter rbox (.articles group groupName articleIds)).realm :=
  (writeArticles_grown unique group articleIds).1

theorem deliver_articleHeader_found {rbox : ReaderBox} {groupId : Text} {group : GroupRef}
    (found : rbox.realm.findGroupById groupId = some group) (articleId : Text) (header : Header) :
    (deliver dateFormatter rbox (.articleHeader groupId articleId header)).realm =
      (ArticleGetMultipleHeadersCommand.writeArticleHeader dateFormatter rbox.realm group articleId header).2 := by
  simp [deliver, ArticleGetMultipleHeadersCommand.newsReaderArticleHeader, found]

theorem deliver_articleHeader_none {rbox : ReaderBox} {groupId : Text}
    (none : rbox.realm.findGroupById groupId = none) (articleId : Text) (header : Header) :
    deliver dateFormatter rbox (.articleHeader groupId articleId header) = rbox := by
  simp [deliver, ArticleGetMultipleHeadersCommand.newsReaderArticleHeader, none]

theorem deliver_catalogued {seen : List (GroupRef × Text)} {rbox : ReaderBox}
    (catalogued : Catalogued groups seen rbox.realm) (delivery : Delivery) :
    Catalogued groups (seen ++ requests groups delivery) (deliver dateFormatter rbox delivery).realm := by
  cases delivery with
  | articles group groupName articleIds =>
    exact catalogued.grown (deliver_articles_grown dateFormatter catalogued.unique group groupName articleIds)
  | articleHeader groupId articleId header =>
    have lookup := catalogued.findGroupById groupId
    rw [requests, ← lookup]
    cases found : rbox.realm.findGroupById groupId with
    | none =>
      rw [deliver_articleHeader_none found]
      simpa using catalogued
    | some group =>
      rw [deliver_articleHeader_found found]
      exact catalogued.grown (writeArticleHeader_grown dateFormatter catalogued.unique group articleId header)

theorem reached_catalogued (dateFormatter : Text → Text → Option Date) (groups : List NewsGroup)
    (run : List Delivery) :
    Catalogued groups (requested groups run) (reached dateFormatter groups run) := by
  induction run using List.reverseRecOn with
  | nil => exact ⟨rfl, rfl⟩
  | append_singleton front delivery inductionHypothesis =>
    obtain ⟨rbox, realm, later⟩ := reached_append dateFormatter groups front delivery
    rw [later, requested_append]
    rw [← realm] at inductionHypothesis
    exact deliver_catalogued inductionHypothesis delivery

/-- Two groups whose servers number their articles from 1. -/
def twoGroups : List NewsGroup :=
  [{ id := some "A".toList, name := "alt.a".toList }, { id := some "B".toList, name := "alt.b".toList }]

end EasyNews.Verified.Deliveries
