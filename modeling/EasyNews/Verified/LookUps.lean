import Mathlib.Data.Bool.AllAny
import EasyNews.Filters

/-! # Look-ups by text

A filter is read back as the comparison it was meant to be exactly if the sought text has no single quote
and no backslash. For these texts the look-ups are those of `Realm`, which compare the properties.
-/

namespace EasyNews.Verified.LookUps

open Filters QuotedLiterals

/-- Neither a single quote nor a backslash. -/
def Plain (text : Text) : Prop := literals.Plain singleQuote text

instance : DecidablePred Plain := fun text =>
  inferInstanceAs (Decidable (singleQuote ∉ text ∧ literals.escape ∉ text))

/-- The filter that asks for a comparison with a text. -/
def asked : Comparison → Text → Text
  | .idEquals => idFilter
  | .nameEquals => nameFilter
  | .nameContains => searchFilter

/-! ## What a filter is read as -/

theorem asked_eq (comparison : Comparison) (text : Text) :
    asked comparison text = comparison.written ++ (singleQuote :: text ++ [singleQuote]) := by
  have quoted : ∀ opening, opening = comparison.written ++ [singleQuote] →
      opening ++ text ++ "'".toList = comparison.written ++ (singleQuote :: text ++ [singleQuote]) := by
    rintro _ rfl
    have closes : "'".toList = [singleQuote] := rfl
    simp only [closes, List.append_assoc, List.cons_append, List.nil_append]
  cases comparison with
  | idEquals => exact quoted "id='".toList rfl
  | nameEquals => exact quoted "name='".toList rfl
  | nameContains => exact quoted "name CONTAINS [cd] '".toList rfl

theorem written_unquoted (comparison : Comparison) : ∀ symbol ∈ comparison.written, symbol ∉ literals.quotes := by
  cases comparison <;> exact List.all_iff_forall_prop.mp (by decide)

theorem written_inj {comparison other : Comparison} (same : comparison.written = other.written) :
    comparison = other := by
  revert same
  cases comparison <;> cases other <;> decide

theorem comparisonOf_eq_some_iff {pieces : List (Piece Char)} {comparison : Comparison} {constant : Text} :
    comparisonOf pieces = some (comparison, constant) ↔
      pieces = comparison.written.map .symbol ++ [.literal constant] := by
  unfold comparisonOf
  constructor
  · intro read
    split at read
    · rename_i literal isLiteral
      obtain ⟨found, isFound, same⟩ := Option.map_eq_some_iff.mp read
      obtain ⟨rfl, rfl⟩ := Prod.mk.inj same
      have front := List.find?_some isFound
      rw [decide_eq_true_iff] at front
      rw [front, ← isLiteral, List.takeWhile_append_dropWhile]
    · cases read
  · rintro rfl
    rw [takeWhile_isSymbol, dropWhile_isSymbol]
    dsimp only
    cases comparison <;> rfl

section Parse

variable {ρ : Type} (filtering : Filtering ρ)

theorem parse_eq_comparison_iff {format : Text} {comparison : Comparison} {constant : Text} :
    filtering.parse format = some (.comparison comparison constant) ↔
      literals.pieces format = some (comparison.written.map .symbol ++ [.literal constant]) := by
  unfold Filtering.parse
  cases literals.pieces format with
  | none => simp
  | some pieces =>
    rw [Option.some.injEq, ← comparisonOf_eq_some_iff]
    simp only [Option.bind_eq_bind, Option.bind_some]
    cases comparisonOf pieces with
    | none => simp
    | some read => simp [Prod.ext_iff]

theorem parse_asked_iff (comparison : Comparison) (text : Text) :
    filtering.parse (asked comparison text) = some (.comparison comparison text) ↔ Plain text := by
  rw [parse_eq_comparison_iff, asked_eq]
  exact Quoting.pieces_literal_iff (by decide) (written_unquoted comparison) text

theorem comparison_of_asked {comparison other : Comparison} {text constant : Text}
    (read : filtering.parse (asked comparison text) = some (.comparison other constant)) : other = comparison := by
  rw [parse_eq_comparison_iff, asked_eq] at read
  obtain ⟨written, value, back, rest, -, -, same⟩ :=
    Quoting.exists_of_pieces_literal (by decide) (written_unquoted comparison) read
  have front := congrArg (List.takeWhile Piece.isSymbol) same
  rw [takeWhile_isSymbol, takeWhile_isSymbol] at front
  exact written_inj (List.map_injective_iff.mpr (fun _ _ same => Piece.symbol.inj same) front)

theorem filter_of_plain (records : List ρ) (comparison : Comparison) {text : Text} (plain : Plain text) :
    filtering.filter records (asked comparison text) =
      some (records.findIdxs (filtering.selects (.comparison comparison text))) := by
  rw [Filtering.filter, (parse_asked_iff filtering comparison text).mpr plain]
  rfl

end Parse

/-! ## The look-ups -/

theorem head?_findIdxs_from {ρ : Type} (selects : ρ → Bool) (records : List ρ) (start : Nat) :
    (records.findIdxs selects start).head? = (records.findIdx? selects).map (· + start) := by
  induction records generalizing start with
  | nil => rfl
  | cons record records inductionHypothesis =>
    rw [List.findIdxs_cons, List.findIdx?_cons]
    split
    · simp
    · rw [inductionHypothesis, Option.map_map]
      congr 1
      funext place
      simp only [Function.comp_apply]
      omega

theorem head?_findIdxs {ρ : Type} (selects : ρ → Bool) (records : List ρ) :
    (records.findIdxs selects).head? = records.findIdx? selects := by
  rw [head?_findIdxs_from]
  exact Option.map_id'

/-- Every look-up of the text gives what comparing the properties with it gives. -/
structure Exact (text : Text) (containsCD : Text → Text → Bool)
    (otherGroups : List (Piece Char) → Option (NewsGroup → Bool))
    (otherArticles : List (Piece Char) → Option (NewsGroupArticle → Bool)) (realm : Realm) : Prop where
  byId : findGroupById (ofGroups containsCD otherGroups) realm text = some (realm.findGroupById text)
  byName : findGroupByName (ofGroups containsCD otherGroups) realm text = some (realm.findGroupByName text)
  createdGroup : ∀ uuidString now, findOrCreateGroup (ofGroups containsCD otherGroups) realm text uuidString now =
    some (realm.findOrCreateGroup text uuidString now)
  createdArticle : ∀ group, findOrCreateGroupArticle (ofArticles containsCD otherArticles) realm group text =
    some (realm.findOrCreateGroupArticle group text)
  search : text ≠ [] → setSearch (ofGroups containsCD otherGroups) realm text =
    some (realm.groups.findIdxs fun group => containsCD text group.name)

theorem selects_name (containsCD : Text → Text → Bool) (other : List (Piece Char) → Option (NewsGroup → Bool))
    (text : Text) : (ofGroups containsCD other).selects (.comparison .nameEquals text) =
      fun group => decide (group.name = text) := by
  funext group
  simp only [Filtering.selects, ofGroups, Option.some.injEq]

theorem selects_articleId (containsCD : Text → Text → Bool)
    (other : List (Piece Char) → Option (NewsGroupArticle → Bool)) (text : Text) :
    (ofArticles containsCD other).selects (.comparison .idEquals text) = fun article => decide (article.id = text) := by
  funext article
  simp only [Filtering.selects, ofArticles, Option.some.injEq]

section Plain

variable {text : Text} (plain : Plain text) (containsCD : Text → Text → Bool)
  (otherGroups : List (Piece Char) → Option (NewsGroup → Bool))
  (otherArticles : List (Piece Char) → Option (NewsGroupArticle → Bool)) (realm : Realm)
include plain

theorem findGroupById_of_plain :
    findGroupById (ofGroups containsCD otherGroups) realm text = some (realm.findGroupById text) := by
  have selected := filter_of_plain (ofGroups containsCD otherGroups) realm.groups .idEquals plain
  rw [asked] at selected
  rw [findGroupById, findGroup, selected, Option.map_some, head?_findIdxs]
  rfl

theorem findGroupByName_of_plain :
    findGroupByName (ofGroups containsCD otherGroups) realm text = some (realm.findGroupByName text) := by
  have selected := filter_of_plain (ofGroups containsCD otherGroups) realm.groups .nameEquals plain
  rw [asked] at selected
  rw [findGroupByName, findGroup, selected, Option.map_some, head?_findIdxs, selects_name]
  rfl

theorem articles_of_plain :
    (ofArticles containsCD otherArticles).filter realm.articles (idFilter text) = some (realm.articlesWithId text) := by
  have selected := filter_of_plain (ofArticles containsCD otherArticles) realm.articles .idEquals plain
  rw [asked] at selected
  rw [selected, selects_articleId]
  rfl

theorem exact_of_plain : Exact text containsCD otherGroups otherArticles realm where
  byId := findGroupById_of_plain plain containsCD otherGroups realm
  byName := findGroupByName_of_plain plain containsCD otherGroups realm
  createdGroup uuidString now := by
    have found := findGroupByName_of_plain plain containsCD otherGroups realm
    rw [findGroupByName] at found
    unfold findOrCreateGroup Realm.findOrCreateGroup
    rw [found]
    cases realm.findGroupByName text <;> rfl
  createdArticle group := by
    unfold findOrCreateGroupArticle Realm.findOrCreateGroupArticle
    rw [articles_of_plain plain containsCD otherArticles realm]
    cases realm.articlesWithId text with
    | nil => rfl
    | cons article more => cases more <;> rfl
  search nonempty := by
    have selected := filter_of_plain (ofGroups containsCD otherGroups) realm.groups .nameContains plain
    rw [asked] at selected
    rw [setSearch, if_pos nonempty, selected]
    rfl

end Plain

/-! ## A plain store -/

/-- The texts that records are looked up by. -/
def keys (realm : Realm) : List Text :=
  realm.groups.map NewsGroup.name ++ realm.groups.filterMap NewsGroup.id ++ realm.articles.map NewsGroupArticle.id

/-- No name and no id holds a quote or a backslash. -/
def PlainStore (realm : Realm) : Prop := ∀ key ∈ keys realm, Plain key

instance : DecidablePred PlainStore := fun realm => inferInstanceAs (Decidable (∀ key ∈ keys realm, Plain key))

section PlainStore

variable {realm : Realm}

theorem PlainStore.name (plain : PlainStore realm) {group : GroupRef} {record : NewsGroup}
    (here : realm.groups[group]? = some record) : Plain record.name :=
  plain _ (List.mem_append_left _ (List.mem_append_left _ (List.mem_map_of_mem (List.mem_of_getElem? here))))

theorem PlainStore.articleId (plain : PlainStore realm) {article : ArticleRef} {record : NewsGroupArticle}
    (here : realm.articles[article]? = some record) : Plain record.id :=
  plain _ (List.mem_append_right _ (List.mem_map_of_mem (List.mem_of_getElem? here)))

variable (containsCD : Text → Text → Bool) (otherGroups : List (Piece Char) → Option (NewsGroup → Bool))
  (otherArticles : List (Piece Char) → Option (NewsGroupArticle → Bool))

/-- Where a plain store is left behind, the name was plain: a look-up by its filter is the one of `Realm`. -/
theorem findOrCreateGroup_of_plainStore {name uuidString : Text} {now : Date}
    (plain : PlainStore (realm.findOrCreateGroup name uuidString now).2) :
    findOrCreateGroup (ofGroups containsCD otherGroups) realm name uuidString now =
      some (realm.findOrCreateGroup name uuidString now) := by
  have isPlain : Plain name := by
    unfold Realm.findOrCreateGroup at plain
    cases found : realm.findGroupByName name with
    | none =>
      rw [found] at plain
      exact plain name (List.mem_append_left _ (List.mem_append_left _ (by simp)))
    | some group =>
      rw [found] at plain
      obtain ⟨inside, isName, -⟩ := List.findIdx?_eq_some_iff_getElem.mp found
      exact of_decide_eq_true isName ▸ plain.name (List.getElem?_eq_getElem inside)
  exact (exact_of_plain isPlain containsCD otherGroups (fun _ => none) realm).createdGroup uuidString now

theorem findOrCreateGroupArticle_of_plainStore {group : GroupRef} {articleId : Text}
    (plain : PlainStore (realm.findOrCreateGroupArticle group articleId).2) :
    findOrCreateGroupArticle (ofArticles containsCD otherArticles) realm group articleId =
      some (realm.findOrCreateGroupArticle group articleId) := by
  have isPlain : Plain articleId := by
    obtain ⟨record, here, isId⟩ : ∃ record ∈ (realm.findOrCreateGroupArticle group articleId).2.articles,
        record.id = articleId := by
      unfold Realm.findOrCreateGroupArticle
      split
      · rename_i article found
        have member : article ∈ realm.articlesWithId articleId := found ▸ List.mem_singleton_self article
        obtain ⟨inside, isId⟩ := List.mem_findIdxs_iff_exists_getElem_pos.mp member
        exact ⟨_, List.getElem_mem inside, of_decide_eq_true isId⟩
      · exact ⟨Realm.newArticle group articleId, List.mem_append_right _ List.mem_cons_self, rfl⟩
    obtain ⟨article, atArticle⟩ := List.mem_iff_getElem?.mp here
    exact isId ▸ plain.articleId atArticle
  exact (exact_of_plain isPlain containsCD (fun _ => none) otherArticles realm).createdArticle group

/-- A plain name that is stored is found by its filter. -/
theorem exists_findGroupByName {name : Text} (plain : Plain name) (stored : name ∈ realm.groups.map NewsGroup.name) :
    ∃ group, findGroupByName (ofGroups containsCD otherGroups) realm name = some (some group) := by
  rw [findGroupByName_of_plain plain]
  obtain ⟨record, inside, isName⟩ := List.mem_map.mp stored
  have isFound : (realm.groups.findIdx? fun group => decide (group.name = name)).isSome = true := by
    rw [List.findIdx?_isSome]
    exact List.any_eq_true.mpr ⟨record, inside, by simp [isName]⟩
  obtain ⟨group, isGroup⟩ := Option.isSome_iff_exists.mp isFound
  exact ⟨group, congrArg some isGroup⟩

/-- A plain id of one article selects it. -/
theorem exists_filter_articleId {articleId : Text} (plain : Plain articleId)
    (unique : (realm.articles.map NewsGroupArticle.id).Nodup)
    (stored : articleId ∈ realm.articles.map NewsGroupArticle.id) :
    ∃ article, (ofArticles containsCD otherArticles).filter realm.articles (idFilter articleId) = some [article] := by
  rw [articles_of_plain plain]
  obtain ⟨article, inside, isId⟩ := List.mem_iff_getElem.mp stored
  refine ⟨article, congrArg some (List.perm_singleton.mp ?_)⟩
  refine (List.perm_ext_iff_of_nodup List.nodup_findIdxs (List.nodup_singleton article)).mpr fun other => ?_
  rw [List.mem_singleton, List.mem_findIdxs_iff_exists_getElem_pos]
  constructor
  · rintro ⟨otherInside, isOther⟩
    have bound : other < (realm.articles.map NewsGroupArticle.id).length := by simpa using otherInside
    have same : (realm.articles.map NewsGroupArticle.id)[other] = (realm.articles.map NewsGroupArticle.id)[article] := by
      rw [isId, List.getElem_map]
      exact of_decide_eq_true isOther
    exact (List.Nodup.getElem_inj_iff unique).mp same
  · rintro rfl
    rw [List.getElem_map] at isId
    exact ⟨by simpa using inside, decide_eq_true isId⟩

end PlainStore

/-! ## Every text -/

theorem plain_of_found {text : Text} {containsCD : Text → Text → Bool}
    (found : findGroupByName (ofGroups containsCD fun _ => none) ⟨[{ name := text }], []⟩ text = some (some 0)) :
    Plain text := by
  have read : ∃ predicate, (ofGroups containsCD fun _ => none).parse (asked .nameEquals text) = some predicate ∧
      (ofGroups containsCD fun _ => none).selects predicate { name := text } = true := by
    unfold findGroupByName findGroup Filtering.filter at found
    rw [Option.map_map] at found
    obtain ⟨predicate, isRead, selected⟩ := Option.map_eq_some_iff.mp found
    refine ⟨predicate, isRead, ?_⟩
    rw [Function.comp_apply, List.findIdxs_singleton] at selected
    by_contra refused
    simp [refused] at selected
  obtain ⟨predicate, isRead, selected⟩ := read
  cases predicate with
  | other selects =>
    unfold Filtering.parse at isRead
    obtain ⟨pieces, -, isOther⟩ := Option.bind_eq_some_iff.mp isRead
    split at isOther
    · cases isOther
    · cases isOther
  | comparison comparison constant =>
    have same := comparison_of_asked _ isRead
    subst same
    rw [selects_name, decide_eq_true_iff] at selected
    have isText : text = constant := selected
    rw [← isText] at isRead
    exact (parse_asked_iff _ .nameEquals text).mp isRead

/-- Each filter is read as the comparison it was meant to be exactly if the text is plain; and exactly then
    the look-ups find the records with that property, whatever else `NSPredicate` may read. -/
theorem look_ups_exact_iff (text : Text) :
    (∀ (ρ : Type) (filtering : Filtering ρ) comparison,
      filtering.parse (asked comparison text) = some (.comparison comparison text) ↔ Plain text) ∧
    ((∀ containsCD otherGroups otherArticles realm, Exact text containsCD otherGroups otherArticles realm) ↔
      Plain text) := by
  refine ⟨fun ρ filtering comparison => parse_asked_iff filtering comparison text, fun always => ?_, exact_of_plain⟩
  have found := (always (fun _ _ => false) (fun _ => none) (fun _ => none) ⟨[{ name := text }], []⟩).byName
  refine @plain_of_found text (fun _ _ => false) (found.trans ?_)
  simp [Realm.findGroupByName, Realm.findGroup]

/-- Two groups whose names a backslash tells apart. -/
def twoGroups : Realm := ⟨[{ name := "ab".toList }, { name := "a\\b".toList }], []⟩

/-- With a quote in the text the filter is ill-formed, with a backslash it selects another group. -/
theorem quote_breaks_the_filter :
    ¬ (∀ text containsCD otherGroups otherArticles realm, Exact text containsCD otherGroups otherArticles realm) ∧
    (∀ containsCD other realm, findGroupByName (ofGroups containsCD other) realm "it's".toList = none) ∧
    (∀ containsCD other realm, setSearch (ofGroups containsCD other) realm "it's".toList = none) ∧
    ∀ containsCD other, findGroupByName (ofGroups containsCD other) twoGroups "a\\b".toList = some (some 0) := by
  have named : literals.pieces (nameFilter "it's".toList) = none := by decide
  have searched : literals.pieces (searchFilter "it's".toList) = none := by decide
  have raises : ∀ containsCD other realm,
      findGroupByName (ofGroups containsCD other) realm "it's".toList = none := by
    intro containsCD other realm
    simp only [findGroupByName, findGroup, Filtering.filter, Filtering.parse, named, Option.bind_eq_bind,
      Option.bind_none, Option.map_none]
  refine ⟨fun claim => ?_, raises, fun containsCD other realm => ?_, fun containsCD other => ?_⟩
  · have found := (claim "it's".toList (fun _ _ => false) (fun _ => none) (fun _ => none) ⟨[], []⟩).byName
    rw [raises] at found
    cases found
  · rw [setSearch, if_pos (by decide), Filtering.filter, Filtering.parse, searched]
    rfl
  · have read : (ofGroups containsCD other).parse (nameFilter "a\\b".toList) =
        some (.comparison .nameEquals "ab".toList) :=
      (parse_eq_comparison_iff _).mpr (by decide)
    rw [findGroupByName, findGroup, Filtering.filter, read, Option.map_some, selects_name]
    decide

end EasyNews.Verified.LookUps
