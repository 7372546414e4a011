import EasyNews.NewsModels

/-! # The store behind `ReaderBox`

`Realm` holds the records of both classes. A filter `"id='…'"` selects the records whose field
equals the literal, which is the text sought as long as that has no quote and no backslash (`Filters`
has the others). A query inside a write transaction sees the transaction's own additions.
-/

namespace EasyNews

/-- The records of a Realm, in order of creation. -/
structure Realm where
  groups : List NewsGroup
  articles : List NewsGroupArticle
deriving DecidableEq, Repr

namespace Realm

/-- `realm.objects(NewsGroupArticle.self).filter("id='…'")`. -/
def articlesWithId (realm : Realm) (articleId : Text) : List ArticleRef :=
  realm.articles.findIdxs (·.id = articleId)

/-- `ReaderBox.findGroup(withFilter:)`: the first group the filter selects. -/
def findGroup (realm : Realm) (withFilter : NewsGroup → Bool) : Option GroupRef :=
  realm.groups.findIdx? withFilter

/-- `ReaderBox.findGroup(byId:)`. -/
def findGroupById (realm : Realm) (byId : Text) : Option GroupRef :=
  realm.findGroup (·.id = some byId)

/-- `ReaderBox.findGroup(name:)`, the same filter as in `findOrCreateGroup`. -/
def findGroupByName (realm : Realm) (name : Text) : Option GroupRef :=
  realm.findGroup (·.name = name)

def modifyGroup (realm : Realm) (group : GroupRef) (change : NewsGroup → NewsGroup) : Realm :=
  { realm with groups := realm.groups.modify group change }

/-- `ReaderBox.findOrCreateGroup`: the record, whether it is new, and the realm after. `uuidString`
    and `now` are what `UUID().uuidString` and `Date()` return. -/
def findOrCreateGroup (realm : Realm) (name uuidString : Text) (now : Date) : (GroupRef × Bool) × Realm :=
  match realm.findGroupByName name with
  | some group => ((group, false), realm)
  | none =>
    let newGroup : NewsGroup := { id := some uuidString, name, updated := some now }
    ((realm.groups.length, true), { realm with groups := realm.groups ++ [newGroup] })

def newArticle (group : GroupRef) (articleId : Text) : NewsGroupArticle where
  group := some group
  id := articleId
  subject := some []
  contentType := some []
  date := none
  size := none

/-- `group.articles.append(article)`. -/
def appendToGroup (realm : Realm) (group : GroupRef) (article : ArticleRef) : Realm :=
  { realm with
    groups := realm.groups.modify group fun record => { record with articles := record.articles ++ [article] } }

def modifyArticle (realm : Realm) (article : ArticleRef) (change : NewsGroupArticle → NewsGroupArticle) :
    Realm :=
  { realm with articles := realm.articles.modify article change }

/-- The part of `findOrCreateGroupArticle` behind the look-up: the new record gets the next
    reference, and joins the group's list when it joins the realm. -/
def createGroupArticle (realm : Realm) (group : GroupRef) (articleId : Text) : ArticleRef × Realm :=
  let article := realm.articles.length
  (article,
    { realm with articles := realm.articles ++ [newArticle group articleId] }.appendToGroup group article)

/-- `ReaderBox.findOrCreateGroupArticle`: the record, whether it is new, and the realm after. -/
def findOrCreateGroupArticle (realm : Realm) (group : GroupRef) (articleId : Text) :
    (ArticleRef × Bool) × Realm :=
  match realm.articlesWithId articleId with
  | [article] => ((article, false), realm)
  | _ =>
    let (article, realm) := realm.createGroupArticle group articleId
    ((article, true), realm)

end Realm

end EasyNews
