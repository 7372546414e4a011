import Mathlib.Data.List.Sort
import EasyNews.NewsModels
import EasyNews.StringExtension

/-! # `ArticlesTableVM`

The view model of a group's table. `ArticleVM` and `ArticleOutlineVM` are classes: the table
holds references, `objects` says what an article reference stands for, and an outline is named by
its place in the order of creation. A call hands the table an object that exists already, so two
calls may hand it the same one. Its dictionaries find a text by the form that `==` compares.
-/

namespace EasyNews

abbrev ArticleVMRef := Nat

abbrev OutlineRef := Nat

/-- `ArticleOutlineVM`: an entry of the table. -/
structure ArticleOutlineVM where
  article : ArticleVMRef
  children : List ArticleVMRef
deriving DecidableEq, Repr

/-- `ArticleOutlineVM.init(article:)`. -/
def ArticleOutlineVM.ofArticle (article : ArticleVMRef) : ArticleOutlineVM where
  article := article
  children := [article]

/-- `ArticlesTableVM`, with the equality of its keys and the objects its references stand for. -/
structure ArticlesTableVM where
  equality : StringEquality
  objects : ArticleVMRef → ArticleVM
  outlines : List ArticleOutlineVM := []
  articleCache : AList fun _ : Text => OutlineRef := ∅
  displayedCache : AList fun _ : Text => Text := ∅
  articles : List OutlineRef := []

namespace ArticlesTableVM

/-- The id of an article as the dictionaries compare it. -/
def idOf (table : ArticlesTableVM) (article : ArticleVMRef) : Text := table.equality.form (table.objects article).id

/-! ## Assignments -/

/-- `cArticle.article.contentType = …` and `cArticle.article.subject = …`. -/
def updateArticle (cArticle : OutlineRef) (article : ArticleVM) (table : ArticlesTableVM) : ArticlesTableVM :=
  match table.outlines[cArticle]? with
  | some outline =>
    { table with
      objects := Function.update table.objects outline.article
        { table.objects outline.article with contentType := article.contentType, subject := article.subject } }
  | none => table

/-- `ArticleOutlineVM(article: article)`: the new outline and the table after. -/
def newOutline (article : ArticleVMRef) (table : ArticlesTableVM) : OutlineRef × ArticlesTableVM :=
  (table.outlines.length, { table with outlines := table.outlines ++ [.ofArticle article] })

/-- `articleCache[key] = vm`. -/
def cache (key : Text) (vm : OutlineRef) (table : ArticlesTableVM) : ArticlesTableVM :=
  { table with articleCache := table.articleCache.insert (table.equality.form key) vm }

/-- `articles.append(vm)`. -/
def appendEntry (vm : OutlineRef) (table : ArticlesTableVM) : ArticlesTableVM :=
  { table with articles := table.articles ++ [vm] }

/-- `displayedCache[articleId] = articleId`. -/
def display (articleId : Text) (table : ArticlesTableVM) : ArticlesTableVM :=
  { table with displayedCache := table.displayedCache.insert (table.equality.form articleId) articleId }

/-- The order `children.sort` is given. -/
def fileOrder (objects : ArticleVMRef → ArticleVM) (a b : ArticleVMRef) : Prop :=
  fileNumber (objects a).subject ≤ fileNumber (objects b).subject

instance (objects : ArticleVMRef → ArticleVM) : DecidableRel (fileOrder objects) := fun a b =>
  inferInstanceAs (Decidable (fileNumber (objects a).subject ≤ fileNumber (objects b).subject))

/-- `multiArticle?.children.append(article)` and the sort of the children, which is stable. -/
def appendChild (multiArticle : OutlineRef) (article : ArticleVMRef) (table : ArticlesTableVM) :
    ArticlesTableVM :=
  { table with
    outlines := table.outlines.modify multiArticle fun outline =>
      { outline with children := (outline.children ++ [article]).insertionSort (fileOrder table.objects) } }

/-! ## `addArticle` -/

/-- The key of a part: its subject without the mark. `none` for a subject without exactly one. -/
def subjectMinusIndex (subject : Text) : Option Text :=
  match regexMatches partMark subject with
  | [matchString] => some (trimmingCharacters isWhitespace (removingOccurrences matchString subject))
  | _ => none

/-- The branch of a subject without exactly one mark. -/
def addSingle (article : ArticleVMRef) (table : ArticlesTableVM) : ArticlesTableVM :=
  let id := (table.objects article).id
  let (vm, table) := table.newOutline article
  (table.cache id vm).appendEntry vm

/-- The branch of one part of a multi-part post. -/
def addPart (subjectMinusIndex : Text) (article : ArticleVMRef) (table : ArticlesTableVM) : ArticlesTableVM :=
  match table.articleCache.lookup (table.equality.form subjectMinusIndex) with
  | some multiArticle => table.appendChild multiArticle article
  | none =>
    let id := (table.objects article).id
    let (vm, table) := table.newOutline article
    ((table.cache id vm).appendEntry vm).cache subjectMinusIndex vm

/-- What `addArticle` does behind its first `if`. -/
def insertArticle (article : ArticleVMRef) (table : ArticlesTableVM) : ArticlesTableVM :=
  let id := (table.objects article).id
  let subject := (table.objects article).subject
  if subject = [] then
    let (vm, table) := table.newOutline article
    table.cache id vm
  else
    let table := table.display id
    match subjectMinusIndex subject with
    | some key => table.addPart key article
    | none => table.addSingle article

/-- `addArticle(article:)`. -/
def addArticle (article : ArticleVMRef) (table : ArticlesTableVM) : ArticlesTableVM :=
  let id := table.idOf article
  match table.articleCache.lookup id with
  | some cArticle =>
    let table := table.updateArticle cArticle (table.objects article)
    if (table.displayedCache.lookup id).isSome then table else table.insertArticle article
  | none => table.insertArticle article

/-- `ArticlesTableVM.init(group:)`, over the objects that will be handed to it. -/
def new (equality : StringEquality) (objects : ArticleVMRef → ArticleVM) : ArticlesTableVM where
  equality
  objects

def addArticles (articles : List ArticleVMRef) (table : ArticlesTableVM) : ArticlesTableVM :=
  articles.foldl (fun table article => table.addArticle article) table

/-! ## What the table shows -/

/-- The `children` of an outline. -/
def children (table : ArticlesTableVM) (entry : OutlineRef) : List ArticleVMRef :=
  match table.outlines[entry]? with
  | some outline => outline.children
  | none => []

def childIds (table : ArticlesTableVM) (entry : OutlineRef) : List Text := (table.children entry).map table.idOf

/-- The ids in all children lists of the entries, one entry after another. -/
def shownIds (table : ArticlesTableVM) : List Text := table.articles.flatMap table.childIds

end ArticlesTableVM

end EasyNews
