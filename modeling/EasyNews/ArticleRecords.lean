import EasyNews.ReaderBox

/-! # Article records under find-or-create

In a realm with at most one record per id, `findOrCreateGroupArticle` returns the record of the id
or adds one. `entries` is what it looks at and never changes once written: each record's group and
id.
-/

namespace EasyNews

namespace Realm

/-- Group and id of every record. -/
def entries (realm : Realm) : List (Option GroupRef × Text) :=
  realm.articles.map fun article => (article.group, article.id)

def articleIds (realm : Realm) : List Text := realm.articles.map (·.id)

/-- At most one record per id. -/
def UniqueIds (realm : Realm) : Prop := realm.articleIds.Nodup

def groupArticles (realm : Realm) (group : GroupRef) : List ArticleRef :=
  (realm.groups[group]?.map NewsGroup.articles).getD []

/-- The record of an id, in a realm with one at most. -/
def recordOf (realm : Realm) (articleId : Text) : Option NewsGroupArticle :=
  realm.articles.find? (·.id = articleId)

theorem recordOf_eq_some_iff {realm : Realm} (unique : realm.UniqueIds) {articleId : Text}
    {record : NewsGroupArticle} :
    realm.recordOf articleId = some record ↔
      ∃ article : Nat, realm.articles[article]? = some record ∧ record.id = articleId := by
  constructor
  · intro found
    obtain ⟨article, atIndex⟩ := List.mem_iff_getElem?.mp (List.mem_of_find?_eq_some found)
    exact ⟨article, atIndex, by simpa using List.find?_some found⟩
  · rintro ⟨article, atIndex, rfl⟩
    have member := List.mem_of_getElem? atIndex
    cases found : realm.recordOf record.id with
    | none =>
      have missed := List.find?_eq_none.mp found record member
      simp at missed
    | some other =>
      have sameId : other.id = record.id := by simpa using List.find?_some found
      rw [List.inj_on_of_nodup_map unique (List.mem_of_find?_eq_some found) member sameId]

theorem articleIds_eq_entries (realm : Realm) : realm.articleIds = realm.entries.map Prod.snd := by
  simp [articleIds, entries]

/-! ## The look-up -/

theorem articlesWithId_of_not_mem {realm : Realm} {articleId : Text}
    (absent : articleId ∉ realm.articleIds) : realm.articlesWithId articleId = [] := by
  rw [articlesWithId, List.findIdxs_eq_nil_iff]
  intro article member
  rw [decide_eq_false_iff_not]
  rintro rfl
  exact absent (List.mem_map_of_mem member)

theorem articlesWithId_of_getElem? {realm : Realm} (unique : realm.UniqueIds) {article : ArticleRef}
    {record : NewsGroupArticle} (found : realm.articles[article]? = some record) :
    realm.articlesWithId record.id = [article] := by
  obtain ⟨inside, atIndex⟩ := List.getElem?_eq_some_iff.mp found
  have selected : article ∈ realm.articlesWithId record.id := by
    rw [articlesWithId, List.mem_findIdxs_iff_exists_getElem_pos]
    exact ⟨inside, by simp [atIndex]⟩
  have single : (realm.articlesWithId record.id).length ≤ 1 := by
    rw [articlesWithId, List.length_findIdxs]
    have counted := List.nodup_iff_count_le_one.mp unique record.id
    rw [articleIds, List.count, List.countP_map] at counted
    exact (List.countP_congr (by simp)).trans_le counted
  match h : realm.articlesWithId record.id with
  | [] => simp [h] at selected
  | [other] => simpa [h, eq_comm] using selected
  | _ :: _ :: _ => simp [h] at single

theorem findOrCreateGroupArticle_found {realm : Realm} (unique : realm.UniqueIds) (group : GroupRef)
    {article : ArticleRef} {record : NewsGroupArticle} (found : realm.articles[article]? = some record) :
    realm.findOrCreateGroupArticle group record.id = ((article, false), realm) := by
  simp [findOrCreateGroupArticle, articlesWithId_of_getElem? unique found]

theorem findOrCreateGroupArticle_new {realm : Realm} (group : GroupRef) {articleId : Text}
    (absent : articleId ∉ realm.articleIds) :
    realm.findOrCreateGroupArticle group articleId =
      ((realm.articles.length, true), (realm.createGroupArticle group articleId).2) := by
  simp [findOrCreateGroupArticle, articlesWithId_of_not_mem absent, createGroupArticle]

/-! ## What the writes touch -/

@[simp] theorem appendToGroup_articles (realm : Realm) (group : GroupRef) (article : ArticleRef) :
    (realm.appendToGroup group article).articles = realm.articles := rfl

@[simp] theorem modifyArticle_groups (realm : Realm) (article : ArticleRef)
    (change : NewsGroupArticle → NewsGroupArticle) :
    (realm.modifyArticle article change).groups = realm.groups := rfl

@[simp] theorem createGroupArticle_articles (realm : Realm) (group : GroupRef) (articleId : Text) :
    (realm.createGroupArticle group articleId).2.articles =
      realm.articles ++ [newArticle group articleId] := rfl

@[simp] theorem appendToGroup_entries (realm : Realm) (group : GroupRef) (article : ArticleRef) :
    (realm.appendToGroup group article).entries = realm.entries := rfl

@[simp] theorem createGroupArticle_entries (realm : Realm) (group : GroupRef) (articleId : Text) :
    (realm.createGroupArticle group articleId).2.entries =
      realm.entries ++ [(some group, articleId)] := by
  simp [entries, newArticle]

theorem modifyArticle_entries (realm : Realm) (article : ArticleRef)
    {change : NewsGroupArticle → NewsGroupArticle}
    (keeps : ∀ record, ((change record).group, (change record).id) = (record.group, record.id)) :
    (realm.modifyArticle article change).entries = realm.entries := by
  apply List.ext_getElem?
  intro index
  simp only [entries, modifyArticle, List.getElem?_map, List.getElem?_modify]
  split
  · cases realm.articles[index]? with
    | none => rfl
    | some record => simpa using keeps record
  · simp

theorem groupArticles_appendToGroup (realm : Realm) {group : GroupRef} (article : ArticleRef)
    (known : group < realm.groups.length) :
    (realm.appendToGroup group article).groupArticles group = realm.groupArticles group ++ [article] := by
  simp [appendToGroup, groupArticles, List.getElem?_eq_getElem known]

@[simp] theorem modifyArticle_groupArticles (realm : Realm) (article : ArticleRef)
    (change : NewsGroupArticle → NewsGroupArticle) (group : GroupRef) :
    (realm.modifyArticle article change).groupArticles group = realm.groupArticles group := rfl

/-- The groups themselves: a list of articles is all that `appendToGroup` changes. -/
theorem appendToGroup_groups_map {β : Type} (project : NewsGroup → β)
    (ignores : ∀ record articles, project { record with articles := articles } = project record)
    (realm : Realm) (group : GroupRef) (article : ArticleRef) :
    (realm.appendToGroup group article).groups.map project = realm.groups.map project := by
  apply List.ext_getElem?
  intro index
  simp only [appendToGroup, List.getElem?_map, List.getElem?_modify]
  split
  · cases realm.groups[index]? with
    | none => rfl
    | some record => simpa using ignores record _
  · simp

theorem findOrCreateGroupArticle_groups_map {β : Type} (project : NewsGroup → β)
    (ignores : ∀ record articles, project { record with articles := articles } = project record)
    (realm : Realm) (group : GroupRef) (articleId : Text) :
    (realm.findOrCreateGroupArticle group articleId).2.groups.map project = realm.groups.map project := by
  unfold findOrCreateGroupArticle
  split
  · rfl
  · exact appendToGroup_groups_map project ignores _ group _

theorem findGroupById_congr {realm later : Realm}
    (same : later.groups.map NewsGroup.id = realm.groups.map NewsGroup.id) (groupId : Text) :
    later.findGroupById groupId = realm.findGroupById groupId := by
  have mapped : ∀ list : List NewsGroup, list.findIdx? (·.id = some groupId) =
      (list.map NewsGroup.id).findIdx? (· = some groupId) := by
    intro list
    rw [List.findIdx?_map]
    rfl
  rw [findGroupById, findGroup, mapped, same, ← mapped]
  rfl

end Realm

end EasyNews
