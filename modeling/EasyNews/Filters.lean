import EasyNews.Library.QuotedLiterals
import EasyNews.ReaderBox

/-! # The filters as texts

The look-ups of `ReaderBox` and `GroupsTableVM` write the sought text between single quotes, and
`NSPredicate` reads the filter: a literal ends at the next unescaped quote, a backslash escapes the next
character, and an ill-formed filter raises an exception, here `none`. Of the predicates it knows only the
comparisons the client asks for are spelled out; what it makes of other texts, and what CONTAINS [cd]
compares, are parameters.
-/

namespace EasyNews

open QuotedLiterals

namespace Filters

/-! ## The texts -/

/-- `"id='\(id)'"`. -/
def idFilter (id : Text) : Text := "id='".toList ++ id ++ "'".toList

/-- `"name='\(name)'"`. -/
def nameFilter (name : Text) : Text := "name='".toList ++ name ++ "'".toList

/-- `"name CONTAINS [cd] '\(text)'"`. -/
def searchFilter (text : Text) : Text := "name CONTAINS [cd] '".toList ++ text ++ "'".toList

/-! ## `NSPredicate` -/

def singleQuote : Char := Char.ofNat 39

def doubleQuote : Char := Char.ofNat 34

def literals : Quoting Char where
  quotes := [singleQuote, doubleQuote]
  escape := Char.ofNat 92

/-- A comparison of a property with a literal. -/
inductive Comparison where
  | idEquals
  | nameEquals
  | nameContains
deriving DecidableEq, Repr

/-- What stands in front of the literal. -/
def Comparison.written : Comparison → Text
  | .idEquals => "id=".toList
  | .nameEquals => "name=".toList
  | .nameContains => "name CONTAINS [cd] ".toList

inductive Predicate (ρ : Type) where
  | comparison (comparison : Comparison) (constant : Text)
  | other (selects : ρ → Bool)

/-- Filtering records of one class: its properties, how `CONTAINS [cd]` compares, and the predicates that
    are not one comparison with a literal. -/
structure Filtering (ρ : Type) where
  property : Comparison → ρ → Option Text
  containsCD : Text → Text → Bool
  other : List (Piece Char) → Option (ρ → Bool)

/-- The pieces of one comparison. -/
def comparisonOf (pieces : List (Piece Char)) : Option (Comparison × Text) :=
  match pieces.dropWhile Piece.isSymbol with
  | [.literal constant] =>
    ([.idEquals, .nameEquals, .nameContains].find? fun comparison =>
      comparison.written.map .symbol = pieces.takeWhile Piece.isSymbol).map (·, constant)
  | _ => none

namespace Filtering

variable {ρ : Type} (filtering : Filtering ρ)

/-- `NSPredicate(format:)`. -/
def parse (format : Text) : Option (Predicate ρ) := do
  let pieces ← literals.pieces format
  match comparisonOf pieces with
  | some (comparison, constant) => return .comparison comparison constant
  | none => (filtering.other pieces).map .other

def selects : Predicate ρ → ρ → Bool
  | .comparison .idEquals constant, record => filtering.property .idEquals record = some constant
  | .comparison .nameEquals constant, record => filtering.property .nameEquals record = some constant
  | .comparison .nameContains constant, record =>
    (filtering.property .nameContains record).any (filtering.containsCD constant)
  | .other selects, record => selects record

/-- `realm.objects(…).filter(format)`. -/
def filter (records : List ρ) (format : Text) : Option (List Nat) :=
  (filtering.parse format).map fun predicate => records.findIdxs (filtering.selects predicate)

end Filtering

/-- Filtering groups. -/
def ofGroups (containsCD : Text → Text → Bool) (other : List (Piece Char) → Option (NewsGroup → Bool)) :
    Filtering NewsGroup where
  property
    | .idEquals, group => group.id
    | _, group => some group.name
  containsCD
  other

/-- Filtering articles, which have no name. -/
def ofArticles (containsCD : Text → Text → Bool) (other : List (Piece Char) → Option (NewsGroupArticle → Bool)) :
    Filtering NewsGroupArticle where
  property
    | .idEquals, article => some article.id
    | _, _ => none
  containsCD
  other

/-! ## The look-ups -/

variable (groups : Filtering NewsGroup) (articles : Filtering NewsGroupArticle) (realm : Realm)

/-- `findGroup(withFilter:)`. -/
def findGroup (withFilter : Text) : Option (Option GroupRef) :=
  (groups.filter realm.groups withFilter).map List.head?

/-- `findGroup(byId:)`. -/
def findGroupById (byId : Text) : Option (Option GroupRef) := findGroup groups realm (idFilter byId)

/-- `findGroup(name:)`. -/
def findGroupByName (name : Text) : Option (Option GroupRef) := findGroup groups realm (nameFilter name)

/-- `findOrCreateGroup(name:)`. -/
def findOrCreateGroup (name uuidString : Text) (now : Date) : Option ((GroupRef × Bool) × Realm) := do
  match ← findGroup groups realm (nameFilter name) with
  | some group => return ((group, false), realm)
  | none =>
    let newGroup : NewsGroup := { id := some uuidString, name, updated := some now }
    return ((realm.groups.length, true), { realm with groups := realm.groups ++ [newGroup] })

/-- `findOrCreateGroupArticle(group:articleId:)`. -/
def findOrCreateGroupArticle (group : GroupRef) (articleId : Text) : Option ((ArticleRef × Bool) × Realm) := do
  match ← articles.filter realm.articles (idFilter articleId) with
  | [article] => return ((article, false), realm)
  | _ =>
    let (article, realm) := realm.createGroupArticle group articleId
    return ((article, true), realm)

/-- `GroupsTableVM.setSearch(text:)`: the groups it shows. -/
def setSearch (text : Text) : Option (List GroupRef) :=
  if text ≠ [] then groups.filter realm.groups (searchFilter text)
  else some (List.range realm.groups.length)

end Filters

end EasyNews
