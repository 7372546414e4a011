import Mathlib.Data.List.AList
import EasyNews.Foundation

/-! # The records of the local database

A Realm object is a reference: an article record is named by its place in the order of
creation, and so is a group record. `NewsGroupArticle.parts` is left out, no modelled code uses it.
-/

namespace EasyNews

/-- A point in time, as `DateFormatter` returns it. -/
abbrev Date := Int

abbrev GroupRef := Nat

abbrev ArticleRef := Nat

/-- `NewsGroup`. The reader builds unmanaged ones without `id`, `updated` and articles. -/
structure NewsGroup where
  id : Option Text := none
  name : Text
  updated : Option Date := none
  first : Option Int := none
  last : Option Int := none
  canPost : Option Bool := none
  articles : List ArticleRef := []
deriving DecidableEq, Repr

/-- `NewsGroupArticle`. -/
structure NewsGroupArticle where
  group : Option GroupRef
  id : Text
  subject : Option Text
  contentType : Option Text
  date : Option Date
  size : Option Int
deriving DecidableEq, Repr

/-- A header dictionary `[String: String]`. -/
abbrev Header := AList fun _ : Text => Text

structure ArticleVM where
  id : Text
  subject : Text
  contentType : Text
  size : Int
  date : Option Date
deriving DecidableEq, Repr

/-- `ArticleVM.init(article:)`. -/
def ArticleVM.ofArticle (article : NewsGroupArticle) : ArticleVM where
  id := article.id
  subject := article.subject.getD []
  contentType := article.contentType.getD "N/A".toList
  size := article.size.getD 0
  date := article.date

end EasyNews
