import Mathlib.Data.Finset.Image
import EasyNews.Library.Grouping
import EasyNews.Verified.PartOrder

/-! # The order in which the articles arrive

Headers arrive in any order. As long as no id is also the key of a post, `articleCache` finds the entry
of a post by its key and nothing by an id, so the entries are the articles grouped by key, each sorted
by `fileNumber`, whatever the order of the calls was.
-/

namespace EasyNews.Verified.ArrivalOrder

open ArticlesTableVM ShownArticles PartOrder Buckets Grouping

section

variable (equality : StringEquality) (objects : ArticleVMRef → ArticleVM)

/-- The id of an article as the dictionaries compare it. -/
def articleId (article : ArticleVMRef) : Text := equality.form (objects article).id

/-- The key of a part as they compare it. -/
def keyOf (article : ArticleVMRef) : Option Text := (subjectMinusIndex (objects article).subject).map equality.form

end

/-- The articles have subjects and ids of their own, and no id is the key of a post. -/
structure Separate (equality : StringEquality) (objects : ArticleVMRef → ArticleVM) (articles : List ArticleVMRef) :
    Prop where
  ids : (articles.map (articleId equality objects)).Nodup
  subjects : ∀ article ∈ articles, (objects article).subject ≠ []
  apart : ∀ article ∈ articles, ∀ other ∈ articles,
    keyOf equality objects other ≠ some (articleId equality objects article)

/-- What an entry is about: the key of a post, or the id of a single article. -/
def label (equality : StringEquality) (objects : ArticleVMRef → ArticleVM) (article : ArticleVMRef) : Text ⊕ Text :=
  match keyOf equality objects article with
  | some key => .inl key
  | none => .inr (articleId equality objects article)

/-- The entries as sets of ids. -/
def entries (table : ArticlesTableVM) : List (Finset Text) :=
  table.articles.map fun entry => (table.childIds entry).toFinset

variable {equality : StringEquality} {objects : ArticleVMRef → ArticleVM} {calls : List ArticleVMRef}
  {article : ArticleVMRef} {table : ArticlesTableVM}

theorem Separate.perm {other : List ArticleVMRef} (separate : Separate equality objects calls)
    (sameCalls : calls.Perm other) :
    Separate equality objects other where
  ids := (sameCalls.map _).nodup_iff.mp separate.ids
  subjects article member := separate.subjects article (sameCalls.mem_iff.mpr member)
  apart article member other otherMember :=
    separate.apart article (sameCalls.mem_iff.mpr member) other (sameCalls.mem_iff.mpr otherMember)

theorem Separate.front (separate : Separate equality objects (calls ++ [article])) :
    Separate equality objects calls where
  ids := by
    have ids := separate.ids
    rw [List.map_append] at ids
    exact (List.nodup_append.mp ids).1
  subjects article member := separate.subjects article (List.mem_append_left _ member)
  apart article member other otherMember :=
    separate.apart article (List.mem_append_left _ member) other (List.mem_append_left _ otherMember)

theorem Separate.nodup (separate : Separate equality objects calls) : calls.Nodup := List.Nodup.of_map _ separate.ids

theorem Separate.eq_of_id (separate : Separate equality objects calls) {other : ArticleVMRef}
    (member : article ∈ calls) (otherMember : other ∈ calls)
    (sameId : articleId equality objects article = articleId equality objects other) : article = other :=
  List.inj_on_of_nodup_map separate.ids member otherMember sameId

theorem Separate.new_id (separate : Separate equality objects (calls ++ [article])) {other : ArticleVMRef}
    (member : other ∈ calls) : articleId equality objects other ≠ articleId equality objects article := by
  intro sameId
  have same := separate.eq_of_id (List.mem_append_left _ member) (List.mem_append_right _ List.mem_cons_self) sameId
  have distinct := separate.nodup
  rw [List.nodup_append] at distinct
  exact distinct.2.2 other member article List.mem_cons_self same

theorem label_of_key {key : Text} (isKey : keyOf equality objects article = some key) :
    label equality objects article = .inl key := by
  rw [label, isKey]

theorem label_eq_inl_iff {key : Text} :
    label equality objects article = .inl key ↔ keyOf equality objects article = some key := by
  unfold label
  cases keyOf equality objects article with
  | none => simp
  | some key => simp

theorem label_eq_of_single {other : ArticleVMRef} (isSingle : keyOf equality objects article = none)
    (sameLabel : label equality objects other = label equality objects article) :
    articleId equality objects other = articleId equality objects article := by
  rw [label, label, isSingle] at sameLabel
  cases isKey : keyOf equality objects other with
  | none =>
    rw [isKey] at sameLabel
    exact Sum.inr.inj sameLabel
  | some key =>
    rw [isKey] at sameLabel
    cases sameLabel

/-! ## What holds between calls -/

/-- The entries group the articles of the calls, and the cache knows their keys. -/
structure Filed (equality : StringEquality) (objects : ArticleVMRef → ArticleVM) (calls : List ArticleVMRef)
    (table : ArticlesTableVM) : Prop where
  sameObjects : table.objects = objects
  sameEquality : table.equality = equality
  valid : (board table).Valid
  grouping : IsGrouping (label equality objects) calls (board table).contents
  isSorted : ∀ content ∈ (board table).contents, content.Pairwise (fileOrder objects)
  /-- What is cached is an id, or the key of an entry that is shown. -/
  cached : ∀ key entry, table.articleCache.lookup key = some entry →
    (∃ call ∈ calls, articleId equality objects call = key) ∨
      (entry ∈ (board table).visible ∧ ∃ child ∈ (board table).bucket entry, label equality objects child = .inl key)
  found : ∀ call ∈ calls, ∀ key, keyOf equality objects call = some key →
    (table.articleCache.lookup key).isSome

theorem filed_new (equality : StringEquality) (objects : ArticleVMRef → ArticleVM) :
    Filed equality objects [] (new equality objects) where
  sameObjects := rfl
  sameEquality := rfl
  valid := Board.valid_empty
  grouping := isGrouping_nil _
  isSorted content inside := absurd inside List.not_mem_nil
  cached key entry isEntry := by simp [new] at isEntry
  found call member := absurd member List.not_mem_nil

theorem Filed.idOf_eq (filed : Filed equality objects calls table) : table.idOf = articleId equality objects := by
  funext article
  rw [idOf, filed.sameObjects, filed.sameEquality]
  rfl

theorem Filed.uncached (filed : Filed equality objects calls table)
    (separate : Separate equality objects (calls ++ [article])) :
    table.articleCache.lookup (articleId equality objects article) = none := by
  rw [Option.eq_none_iff_forall_ne_some]
  intro entry isEntry
  obtain ⟨call, member, sameId⟩ | ⟨visible, child, inside, isKey⟩ := filed.cached _ entry isEntry
  · exact separate.new_id member sameId
  · have member := filed.grouping.mem_items (List.mem_map_of_mem visible) inside
    exact separate.apart article (by simp) child (List.mem_append_left _ member) (label_eq_inl_iff.mp isKey)

theorem Filed.alone {later : ArticlesTableVM} (filed : Filed equality objects calls table)
    (unlike : ∀ other ∈ calls, label equality objects other ≠ label equality objects article)
    (unchanged : later.objects = table.objects) (sameEquality : later.equality = table.equality)
    (isBoard : board later = (board table).addVisible article)
    (isId : later.articleCache.lookup (articleId equality objects article) = some (board table).buckets.length)
    (isKey : ∀ key, keyOf equality objects article = some key →
      later.articleCache.lookup key = some (board table).buckets.length)
    (kept : ∀ key, key ≠ articleId equality objects article → keyOf equality objects article ≠ some key →
      later.articleCache.lookup key = table.articleCache.lookup key) :
    Filed equality objects (calls ++ [article]) later where
  sameObjects := unchanged.trans filed.sameObjects
  sameEquality := sameEquality.trans filed.sameEquality
  valid := isBoard ▸ filed.valid.addVisible article
  grouping := by
    rw [isBoard, Board.contents_addVisible filed.valid]
    exact filed.grouping.alone unlike
  isSorted content inside := by
    rw [isBoard, Board.contents_addVisible filed.valid] at inside
    rcases List.mem_append.mp inside with old | isNew
    · exact filed.isSorted content old
    · rw [List.mem_singleton.mp isNew]
      exact List.pairwise_singleton _ _
  cached key entry isEntry := by
    by_cases sameId : key = articleId equality objects article
    · exact .inl ⟨article, by simp, sameId.symm⟩
    by_cases sameKey : keyOf equality objects article = some key
    · rw [isKey key sameKey] at isEntry
      cases isEntry
      refine .inr ⟨?_, article, ?_, label_of_key sameKey⟩
      · simp [isBoard, Board.addVisible]
      · simp [isBoard, Board.addVisible, Board.bucket, List.getD_eq_getElem?_getD]
    · rw [kept key sameId sameKey] at isEntry
      obtain ⟨call, member, isCall⟩ | ⟨visible, child, inside, isLabel⟩ := filed.cached key entry isEntry
      · exact .inl ⟨call, List.mem_append_left _ member, isCall⟩
      · refine .inr ⟨?_, child, ?_, isLabel⟩
        · rw [isBoard]
          exact List.mem_append_left _ visible
        · rw [isBoard]
          exact (Board.bucket_addHidden article (filed.valid.exist entry visible)).symm ▸ inside
  found call member key callKey := by
    by_cases sameId : key = articleId equality objects article
    · rw [sameId, isId]
      rfl
    by_cases sameKey : keyOf equality objects article = some key
    · rw [isKey key sameKey]
      rfl
    · rw [kept key sameId sameKey]
      rcases List.mem_append.mp member with old | isNew
      · exact filed.found call old key callKey
      · rw [List.mem_singleton.mp isNew] at callKey
        exact absurd callKey sameKey

theorem Filed.join {entry : OutlineRef} {key : Text} (filed : Filed equality objects calls table)
    (visible : entry ∈ (board table).visible) {child : ArticleVMRef} (inside : child ∈ (board table).bucket entry)
    (childKey : label equality objects child = .inl key) (isKey : keyOf equality objects article = some key)
    (isCached : table.articleCache.lookup key = some entry) :
    Filed equality objects (calls ++ [article]) (table.appendChild entry article) := by
  have isBoard := @board_appendChild table entry article
  obtain ⟨front, back, before, after⟩ :=
    Board.contents_put_visible (List.insertionSort (fileOrder table.objects)) article filed.valid visible
  have grouping := filed.grouping
  rw [before] at grouping
  refine ⟨filed.sameObjects, filed.sameEquality, ?_, ?_, ?_, ?_, ?_⟩
  · rw [isBoard]
    exact filed.valid.put _ _ _
  · rw [isBoard, after]
    refine grouping.join inside ?_ (List.perm_insertionSort _ _)
    rw [childKey, label_of_key isKey]
  · intro content isContent
    rw [isBoard, after] at isContent
    obtain rfl | old := mem_of_replaced isContent
    · rw [← filed.sameObjects]
      exact List.pairwise_insertionSort _ _
    · exact filed.isSorted content (before ▸ old)
  · intro other otherEntry isEntry
    obtain ⟨call, member, isCall⟩ | ⟨otherVisible, first, firstInside, isLabel⟩ := filed.cached other otherEntry isEntry
    · exact .inl ⟨call, List.mem_append_left _ member, isCall⟩
    · refine .inr ⟨otherVisible, first, ?_, isLabel⟩
      rw [isBoard]
      by_cases here : otherEntry = entry
      · subst here
        rw [Board.bucket_put _ _ (filed.valid.exist _ visible), List.mem_insertionSort]
        exact List.mem_append_left _ firstInside
      · rw [Board.bucket_put_of_ne _ _ here]
        exact firstInside
  · intro call member other callKey
    rcases List.mem_append.mp member with old | isNew
    · exact filed.found call old other callKey
    · rw [List.mem_singleton.mp isNew, isKey] at callKey
      cases callKey
      show (table.articleCache.lookup key).isSome
      rw [isCached]
      rfl

theorem Filed.display (filed : Filed equality objects calls table) (articleId : Text) :
    Filed equality objects calls (table.display articleId) :=
  ⟨filed.sameObjects, filed.sameEquality, filed.valid, filed.grouping, filed.isSorted, filed.cached, filed.found⟩

theorem Filed.addSingle (filed : Filed equality objects calls table)
    (separate : Separate equality objects (calls ++ [article]))
    (key : keyOf equality objects article = none) :
    Filed equality objects (calls ++ [article]) (table.addSingle article) := by
  have newBucket : (board table).buckets.length = table.outlines.length := List.length_map _
  have isCache : (table.addSingle article).articleCache =
      table.articleCache.insert (articleId equality objects article) table.outlines.length := by
    rw [← filed.sameObjects, ← filed.sameEquality]
    rfl
  refine filed.alone ?_ rfl rfl (board_addSingle table article) ?_ ?_ ?_
  · intro other member sameLabel
    exact separate.new_id member (label_eq_of_single key sameLabel)
  · rw [isCache, newBucket, AList.lookup_insert]
  · intro other isKey
    rw [key] at isKey
    cases isKey
  · intro other notId _
    rw [isCache, AList.lookup_insert_ne notId]

theorem Filed.addFirstPart {key : Text} (filed : Filed equality objects calls table)
    (separate : Separate equality objects (calls ++ [article]))
    (isKey : keyOf equality objects article = some (equality.form key))
    (missed : table.articleCache.lookup (equality.form key) = none) :
    Filed equality objects (calls ++ [article]) ((table.addSingle article).cache key table.outlines.length) := by
  have newBucket : (board table).buckets.length = table.outlines.length := List.length_map _
  have isCache : ((table.addSingle article).cache key table.outlines.length).articleCache =
      (table.articleCache.insert (articleId equality objects article) table.outlines.length).insert (equality.form key)
        table.outlines.length := by
    rw [← filed.sameObjects, ← filed.sameEquality]
    rfl
  have notId : articleId equality objects article ≠ equality.form key := by
    intro same
    exact separate.apart article (by simp) article (by simp) (same ▸ isKey)
  refine filed.alone ?_ rfl rfl (board_addSingle table article) ?_ ?_ ?_
  · intro other member sameLabel
    rw [label_of_key isKey, label_eq_inl_iff] at sameLabel
    have isFound := filed.found other member _ sameLabel
    rw [missed] at isFound
    cases isFound
  · rw [isCache, newBucket, AList.lookup_insert_ne notId, AList.lookup_insert]
  · intro other isOther
    rw [isKey] at isOther
    cases isOther
    rw [isCache, newBucket, AList.lookup_insert]
  · intro other isOther notKey
    have different : other ≠ equality.form key := fun same => notKey (same ▸ isKey)
    rw [isCache, AList.lookup_insert_ne different, AList.lookup_insert_ne isOther]

theorem Filed.addPart {key : Text} (filed : Filed equality objects calls table)
    (separate : Separate equality objects (calls ++ [article]))
    (isKey : keyOf equality objects article = some (equality.form key)) :
    Filed equality objects (calls ++ [article]) (table.addPart key article) := by
  rw [ArticlesTableVM.addPart, filed.sameEquality]
  cases found : table.articleCache.lookup (equality.form key) with
  | none => exact filed.addFirstPart separate isKey found
  | some entry =>
    -- what is cached under the key is the entry of the post, for no id is the key
    obtain ⟨call, member, isCall⟩ | ⟨visible, child, inside, childKey⟩ := filed.cached _ entry found
    · exact absurd isKey (isCall ▸ separate.apart call (List.mem_append_left _ member) article (by simp))
    · exact filed.join visible inside childKey isKey found

theorem Filed.addArticle (filed : Filed equality objects calls table)
    (separate : Separate equality objects (calls ++ [article])) :
    Filed equality objects (calls ++ [article]) (table.addArticle article) := by
  have isObjects := filed.sameObjects
  have subject := separate.subjects article (by simp)
  have displayed := filed.display (objects article).id
  have uncached : table.articleCache.lookup (table.idOf article) = none := by
    rw [filed.idOf_eq]
    exact filed.uncached separate
  rw [ArticlesTableVM.addArticle, uncached]
  dsimp only
  rw [insertArticle, isObjects]
  dsimp only
  rw [if_neg subject]
  cases key : subjectMinusIndex (objects article).subject with
  | none => exact displayed.addSingle separate (by rw [keyOf, key]; rfl)
  | some key' => exact displayed.addPart separate (by rw [keyOf, key]; rfl)

/-- Behind every run the entries group the articles that were added. -/
theorem filed_addArticles (separate : Separate equality objects calls) :
    Filed equality objects calls ((new equality objects).addArticles calls) := by
  induction calls using List.reverseRecOn with
  | nil => exact filed_new equality objects
  | append_singleton calls article inductionHypothesis =>
    rw [addArticles, List.foldl_append]
    exact (inductionHypothesis separate.front).addArticle separate

/-! ## Two orders of the same calls -/

theorem Filed.mem_children (filed : Filed equality objects calls table) {entry : OutlineRef}
    (visible : entry ∈ table.articles)
    (inside : article ∈ table.children entry) : article ∈ calls := by
  rw [children_eq_bucket] at inside
  exact filed.grouping.mem_items (List.mem_map_of_mem visible) inside

theorem Filed.entries_eq (filed : Filed equality objects calls table) :
    entries table =
      ((board table).contents.map List.toFinset).map (Finset.image (articleId equality objects)) := by
  unfold entries Board.contents childIds
  rw [filed.idOf_eq, children_eq_bucket, List.map_map, List.map_map]
  apply List.map_congr_left
  intro entry _
  ext articleId
  simp

theorem Filed.share_iff (filed : Filed equality objects calls table) {other : ArticleVMRef} (member : article ∈ calls)
    (otherMember : other ∈ calls) :
    (∃ entry ∈ table.articles, article ∈ table.children entry ∧ other ∈ table.children entry) ↔
      label equality objects article = label equality objects other := by
  rw [← filed.grouping.share_iff member otherMember, children_eq_bucket]
  constructor
  · rintro ⟨entry, visible, both⟩
    exact ⟨_, List.mem_map_of_mem visible, both⟩
  · rintro ⟨content, isContent, both⟩
    obtain ⟨entry, visible, rfl⟩ := List.mem_map.mp isContent
    exact ⟨entry, visible, both⟩

theorem Filed.single (filed : Filed equality objects calls table) (separate : Separate equality objects calls)
    (member : article ∈ calls) (isSingle : keyOf equality objects article = none) :
    ∃ entry ∈ table.articles, table.children entry = [article] ∧
      ∀ other ∈ table.articles, article ∈ table.children other → other = entry := by
  obtain ⟨content, isContent, inside⟩ := filed.grouping.exists_group member
  obtain ⟨entry, visible, rfl⟩ := List.mem_map.mp isContent
  rw [children_eq_bucket]
  refine ⟨entry, visible, ?_, ?_⟩
  · have distinct := filed.grouping.nodup_group separate.nodup isContent
    refine (List.perm_singleton.mp ?_)
    refine (List.perm_ext_iff_of_nodup distinct (List.nodup_singleton article)).mpr fun other => ?_
    rw [List.mem_singleton, filed.grouping.mem_iff isContent inside other]
    constructor
    · rintro ⟨otherMember, sameLabel⟩
      exact separate.eq_of_id otherMember member (label_eq_of_single isSingle sameLabel)
    · rintro rfl
      exact ⟨member, rfl⟩
  · intro other otherVisible otherInside
    exact filed.grouping.number_eq otherVisible visible otherInside inside rfl

/-- Entries with the same ids have them in the same order if the file numbers tell them apart. -/
theorem Filed.children_eq {other : List ArticleVMRef} {later : ArticlesTableVM}
    (filed : Filed equality objects calls table) (filedLater : Filed equality objects other later)
    (separate : Separate equality objects calls) (sameCalls : calls.Perm other)
    {entry laterEntry : OutlineRef} (visible : entry ∈ table.articles) (laterVisible : laterEntry ∈ later.articles)
    (sameIds : (table.childIds entry).toFinset = (later.childIds laterEntry).toFinset)
    (distinct : ((table.children entry).map fun child => fileNumber (objects child).subject).Nodup) :
    table.children entry = later.children laterEntry := by
  unfold childIds at sameIds
  rw [filed.idOf_eq, filedLater.idOf_eq] at sameIds
  have sameMembers : ∀ child, child ∈ table.children entry ↔ child ∈ later.children laterEntry := by
    intro child
    have ids : ∀ id, id ∈ (table.children entry).map (articleId equality objects) ↔
        id ∈ (later.children laterEntry).map (articleId equality objects) := by
      intro id
      rw [← List.mem_toFinset, sameIds, List.mem_toFinset]
    constructor
    · intro inside
      obtain ⟨twin, twinInside, sameId⟩ := List.mem_map.mp ((ids _).mp (List.mem_map_of_mem inside))
      have member := filed.mem_children visible inside
      have twinMember := sameCalls.mem_iff.mpr (filedLater.mem_children laterVisible twinInside)
      rw [← separate.eq_of_id twinMember member sameId]
      exact twinInside
    · intro inside
      obtain ⟨twin, twinInside, sameId⟩ := List.mem_map.mp ((ids _).mpr (List.mem_map_of_mem inside))
      have member := sameCalls.mem_iff.mpr (filedLater.mem_children laterVisible inside)
      have twinMember := filed.mem_children visible twinInside
      rw [← separate.eq_of_id twinMember member sameId]
      exact twinInside
  have tellsApart := List.inj_on_of_nodup_map distinct
  rw [children_eq_bucket] at sameMembers tellsApart ⊢
  rw [children_eq_bucket] at sameMembers ⊢
  have isContent : (board table).bucket entry ∈ (board table).contents := List.mem_map_of_mem visible
  have isLaterContent : (board later).bucket laterEntry ∈ (board later).contents := List.mem_map_of_mem laterVisible
  have perm := filed.grouping.group_perm filedLater.grouping separate.nodup sameCalls isContent isLaterContent sameMembers
  refine perm.eq_of_pairwise ?_ (filed.isSorted _ isContent) (filedLater.isSorted _ isLaterContent)
  intro child twin inside twinInside below above
  exact tellsApart inside ((sameMembers twin).mpr twinInside) (le_antisymm below above)

def threeArticles : ArticleVMRef → ArticleVM
  | 0 => { id := "1".toList, subject := "a (2/2)".toList, contentType := [], size := 0, date := none }
  | 1 => { id := "2".toList, subject := "a (1/2)".toList, contentType := [], size := 0, date := none }
  | _ => { id := "3".toList, subject := "b".toList, contentType := [], size := 0, date := none }

end EasyNews.Verified.ArrivalOrder
