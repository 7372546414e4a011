import EasyNews.ArticleRecords
import EasyNews.ReaderCommands
import EasyNews.Library.FirstMention

/-! # What the commands' transactions do to the store

In a realm with at most one record per id, the transactions of both commands take in first
mentions: `writeArticles` adds a record for each id it sees first, `writeArticleHeader` finds or
adds one. The record an id got once keeps its group and its place.
-/

namespace EasyNews

open FirstMention Realm

namespace Verified.ArticleStore

/-- The ids a delivery for `group` asks for. -/
def requestsOf (group : GroupRef) (articleIds : List Text) : List (GroupRef × Text) :=
  articleIds.map (group, ·)

/-- The requests that get a new record. -/
def fresh (realm : Realm) (requests : List (GroupRef × Text)) : List (GroupRef × Text) :=
  firsts Prod.snd realm.articleIds requests

/-- The references of the next `count` records. -/
def nextRefs (realm : Realm) (count : Nat) : List ArticleRef :=
  List.range' realm.articles.length count

/-- `realm` has grown to `later` by the records of `requests`, each being `copies` times in the
    list of its group. -/
structure Grown (realm : Realm) (group : GroupRef) (articleIds : List Text) (copies : Nat)
    (later : Realm) : Prop where
  entries : later.entries =
    realm.entries ++ (fresh realm (requestsOf group articleIds)).map fun request => (some request.1, request.2)
  groups : ∀ {β : Type} (project : NewsGroup → β),
    (∀ record articles, project { record with articles := articles } = project record) →
      later.groups.map project = realm.groups.map project
  listed : group < realm.groups.length → later.groupArticles group =
    realm.groupArticles group ++
      (nextRefs realm (fresh realm (requestsOf group articleIds)).length).flatMap (List.replicate copies)

theorem Grown.groups_length {realm later : Realm} {group : GroupRef} {articleIds : List Text} {copies : Nat}
    (grown : Grown realm group articleIds copies later) : later.groups.length = realm.groups.length := by
  have same := congrArg List.length (grown.groups (fun _ => ()) fun _ _ => rfl)
  simpa using same

theorem Grown.articleIds {realm later : Realm} {group : GroupRef} {articleIds : List Text} {copies : Nat}
    (grown : Grown realm group articleIds copies later) :
    later.articleIds = realm.articleIds ++ (fresh realm (requestsOf group articleIds)).map Prod.snd := by
  rw [articleIds_eq_entries, grown.entries, List.map_append, ← articleIds_eq_entries, List.map_map]
  rfl

theorem Grown.uniqueIds {realm later : Realm} {group : GroupRef} {articleIds : List Text} {copies : Nat}
    (grown : Grown realm group articleIds copies later) (unique : realm.UniqueIds) : later.UniqueIds := by
  rw [UniqueIds, grown.articleIds]
  exact nodup_firsts Prod.snd unique _

theorem Grown.articles_length {realm later : Realm} {group : GroupRef} {articleIds : List Text} {copies : Nat}
    (grown : Grown realm group articleIds copies later) :
    later.articles.length =
      realm.articles.length + (fresh realm (requestsOf group articleIds)).length := by
  have same := congrArg List.length grown.entries
  simpa [Realm.entries] using same

theorem Grown.refl (realm : Realm) (group : GroupRef) (copies : Nat) :
    Grown realm group [] copies realm where
  entries := by simp [fresh, requestsOf]
  groups _ _ := rfl
  listed _ := by simp [fresh, requestsOf, nextRefs]

theorem nextRefs_append {realm later : Realm} {count : Nat}
    (length : later.articles.length = realm.articles.length + count) (more : Nat) :
    nextRefs realm (count + more) = nextRefs realm count ++ nextRefs later more := by
  rw [nextRefs, nextRefs, nextRefs, length, List.range'_append_1]

theorem Grown.trans {realm middle later : Realm} {group : GroupRef} {front back : List Text} {copies : Nat}
    (first : Grown realm group front copies middle) (second : Grown middle group back copies later) :
    Grown realm group (front ++ back) copies later := by
  have split : fresh realm (requestsOf group (front ++ back)) =
      fresh realm (requestsOf group front) ++ fresh middle (requestsOf group back) := by
    rw [requestsOf, List.map_append, fresh, firsts_append, fresh, fresh, first.articleIds]
    rfl
  refine ⟨?_, ?_, ?_⟩
  · rw [second.entries, first.entries, split, List.map_append, List.append_assoc]
  · intro β project ignores
    rw [second.groups project ignores, first.groups project ignores]
  · intro known
    have knownLater : group < middle.groups.length := by rw [first.groups_length]; exact known
    rw [second.listed knownLater, first.listed known, split, List.length_append,
      nextRefs_append first.articles_length, List.flatMap_append, List.append_assoc]

/-! ## One look-up -/

theorem fresh_singleton_of_mem {realm : Realm} (group : GroupRef) {articleId : Text}
    (known : articleId ∈ realm.articleIds) : fresh realm (requestsOf group [articleId]) = [] :=
  firsts_cons_of_mem Prod.snd known []

theorem fresh_singleton_of_not_mem {realm : Realm} (group : GroupRef) {articleId : Text}
    (unknown : articleId ∉ realm.articleIds) :
    fresh realm (requestsOf group [articleId]) = [(group, articleId)] :=
  firsts_cons_of_not_mem Prod.snd unknown []

/-- A record with the id is found; otherwise one is created and listed once. -/
theorem findOrCreate_grown {realm : Realm} (unique : realm.UniqueIds) (group : GroupRef)
    (articleId : Text) :
    Grown realm group [articleId] 1 (realm.findOrCreateGroupArticle group articleId).2 := by
  by_cases known : articleId ∈ realm.articleIds
  · obtain ⟨record, member, rfl⟩ := List.mem_map.mp known
    obtain ⟨article, found⟩ := List.mem_iff_getElem?.mp member
    rw [findOrCreateGroupArticle_found unique group found]
    have none := fresh_singleton_of_mem group known
    exact ⟨by simp [none], fun _ _ => rfl, by simp [none, nextRefs]⟩
  · rw [findOrCreateGroupArticle_new group known]
    have one := fresh_singleton_of_not_mem group known
    refine ⟨by rw [one, createGroupArticle_entries]; rfl, ?_, ?_⟩
    · intro β project ignores
      exact appendToGroup_groups_map project ignores _ group _
    · intro inside
      rw [one]
      exact groupArticles_appendToGroup _ _ inside

/-- The record a look-up returns has the id asked for, and the group of the id's first request. -/
theorem findOrCreate_entry {realm : Realm} (unique : realm.UniqueIds) (group : GroupRef)
    (articleId : Text) :
    ∃ owner, (realm.findOrCreateGroupArticle group articleId).2.entries[
        (realm.findOrCreateGroupArticle group articleId).1.1]? = some (owner, articleId) ∧
      (articleId ∉ realm.articleIds → owner = some group) := by
  by_cases known : articleId ∈ realm.articleIds
  · obtain ⟨record, member, rfl⟩ := List.mem_map.mp known
    obtain ⟨article, found⟩ := List.mem_iff_getElem?.mp member
    rw [findOrCreateGroupArticle_found unique group found]
    exact ⟨record.group, by simp [Realm.entries, found], fun absent => absurd known absent⟩
  · rw [findOrCreateGroupArticle_new group known, createGroupArticle_entries]
    refine ⟨some group, ?_, fun _ => rfl⟩
    rw [List.getElem?_append_right (by simp [Realm.entries])]
    simp [Realm.entries]

/-! ## The transactions -/

open ListGroupGetArticleIdsCommand in
/-- The loop body appends a new record a second time to the list its creation joined it to. -/
theorem addArticleId_grown {realm : Realm} (unique : realm.UniqueIds) (group : GroupRef)
    (newArticles : List ArticleRef) (articleId : Text) :
    Grown realm group [articleId] 2 (addArticleId group (realm, newArticles) articleId).1 ∧
      (addArticleId group (realm, newArticles) articleId).2 =
        newArticles ++ nextRefs realm (fresh realm (requestsOf group [articleId])).length := by
  have created := findOrCreate_grown unique group articleId
  by_cases known : articleId ∈ realm.articleIds
  · -- a known id gives back its record and adds nothing
    obtain ⟨record, member, rfl⟩ := List.mem_map.mp known
    obtain ⟨article, found⟩ := List.mem_iff_getElem?.mp member
    have none := fresh_singleton_of_mem group known
    rw [findOrCreateGroupArticle_found unique group found] at created
    simp only [addArticleId, findOrCreateGroupArticle_found unique group found, Bool.false_eq_true, if_false]
    exact ⟨⟨created.entries, created.groups, by simp [none, nextRefs]⟩, by simp [none, nextRefs]⟩
  · -- a new record is appended once where it is created and once more here
    have one := fresh_singleton_of_not_mem group known
    rw [findOrCreateGroupArticle_new group known] at created
    simp only [addArticleId, findOrCreateGroupArticle_new group known, if_true]
    refine ⟨⟨created.entries, ?_, ?_⟩, by simp [one, nextRefs]⟩
    · intro β project ignores
      rw [appendToGroup_groups_map project ignores, created.groups project ignores]
    · intro inside
      have insideLater : group < (realm.createGroupArticle group articleId).2.groups.length := by
        rw [created.groups_length]
        exact inside
      rw [groupArticles_appendToGroup _ _ insideLater, created.listed inside, one, List.append_assoc]
      rfl

open ListGroupGetArticleIdsCommand in
theorem foldl_addArticleId_grown {realm : Realm} (unique : realm.UniqueIds) (group : GroupRef)
    (newArticles : List ArticleRef) (articleIds : List Text) :
    Grown realm group articleIds 2 (articleIds.foldl (addArticleId group) (realm, newArticles)).1 ∧
      (articleIds.foldl (addArticleId group) (realm, newArticles)).2 =
        newArticles ++ nextRefs realm (fresh realm (requestsOf group articleIds)).length := by
  induction articleIds generalizing realm newArticles with
  | nil => exact ⟨Grown.refl realm group 2, by simp [fresh, requestsOf, nextRefs]⟩
  | cons articleId articleIds inductionHypothesis =>
    obtain ⟨step, added⟩ := addArticleId_grown unique group newArticles articleId
    obtain ⟨rest, addedRest⟩ := inductionHypothesis (step.uniqueIds unique)
      (addArticleId group (realm, newArticles) articleId).2
    refine ⟨step.trans rest, ?_⟩
    rw [List.foldl_cons, addedRest, added, List.append_assoc, ← nextRefs_append step.articles_length]
    congr 3
    rw [← List.length_append]
    congr 1
    rw [fresh, fresh, fresh, step.articleIds, fresh, ← firsts_append]
    rfl

/-- Every id of the delivery that is new gets a record, which is listed twice, and its reference
    is among the new ones. -/
theorem writeArticles_grown {realm : Realm} (unique : realm.UniqueIds) (group : GroupRef)
    (articleIds : List Text) :
    Grown realm group articleIds 2
        (ListGroupGetArticleIdsCommand.writeArticles realm group articleIds).1 ∧
      (ListGroupGetArticleIdsCommand.writeArticles realm group articleIds).2 =
        nextRefs realm (fresh realm (requestsOf group articleIds)).length :=
  foldl_addArticleId_grown unique group [] articleIds

variable (dateFormatter : Text → Text → Option Date)

theorem writeHeader_keeps (header : Header) (record : NewsGroupArticle) :
    ((ArticleGetMultipleHeadersCommand.writeHeader dateFormatter header record).group,
      (ArticleGetMultipleHeadersCommand.writeHeader dateFormatter header record).id) =
        (record.group, record.id) := by
  rw [ArticleGetMultipleHeadersCommand.writeHeader_eq]

theorem writeArticleHeader_grown {realm : Realm} (unique : realm.UniqueIds) (group : GroupRef)
    (articleId : Text) (header : Header) :
    Grown realm group [articleId] 1
      (ArticleGetMultipleHeadersCommand.writeArticleHeader dateFormatter realm group articleId header).2 := by
  have created := findOrCreate_grown unique group articleId
  refine ⟨?_, ?_, ?_⟩
  · rw [ArticleGetMultipleHeadersCommand.writeArticleHeader,
      modifyArticle_entries _ _ (writeHeader_keeps dateFormatter header)]
    exact created.entries
  · exact created.groups
  · exact created.listed

end Verified.ArticleStore

end EasyNews
