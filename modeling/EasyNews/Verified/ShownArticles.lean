import EasyNews.ArticlesTable
import EasyNews.Library.Buckets
import EasyNews.Library.Runs

/-! # Which articles the table shows

The outlines are buckets of articles, the entries of `articles` the visible ones. An article with
a subject is put into one bucket by every call that does not return early; whether the reader of
the table sees it once depends on which calls return early and which outlines are visible.
-/

namespace EasyNews.Verified.ShownArticles

open ArticlesTableVM Buckets

variable {table : ArticlesTableVM}

/-! ## The table as a board -/

def board (table : ArticlesTableVM) : Board ArticleVMRef where
  buckets := table.outlines.map (·.children)
  visible := table.articles

theorem children_eq_bucket (table : ArticlesTableVM) : table.children = (board table).bucket := by
  funext entry
  simp only [children, Board.bucket, board, List.getD_eq_getElem?_getD, List.getElem?_map]
  cases table.outlines[entry]? with
  | none => rfl
  | some outline => rfl

theorem shownIds_eq (table : ArticlesTableVM) :
    table.shownIds = (board table).items.map table.idOf := by
  rw [shownIds, Board.items, List.map_flatMap, ← children_eq_bucket]
  rfl

@[simp] theorem board_updateArticle (cArticle : OutlineRef) (article : ArticleVM) :
    board (table.updateArticle cArticle article) = board table := by
  unfold updateArticle
  split <;> rfl

@[simp] theorem board_cache (key : Text) (vm : OutlineRef) : board (table.cache key vm) = board table := rfl

@[simp] theorem board_display (articleId : Text) : board (table.display articleId) = board table := rfl

theorem board_newOutline (article : ArticleVMRef) :
    board (table.newOutline article).2 = (board table).addHidden article := by
  simp [board, newOutline, Board.addHidden, ArticleOutlineVM.ofArticle]

theorem board_appendEntry (table : ArticlesTableVM) (article : ArticleVMRef) (key : Text) :
    board (((table.newOutline article).2.cache key table.outlines.length).appendEntry table.outlines.length) =
      (board table).addVisible article := by
  simp [board, newOutline, cache, appendEntry, Board.addVisible, ArticleOutlineVM.ofArticle]

theorem board_addSingle (table : ArticlesTableVM) (article : ArticleVMRef) :
    board (table.addSingle article) = (board table).addVisible article :=
  board_appendEntry table article (table.objects article).id

theorem board_appendChild (multiArticle : OutlineRef) (article : ArticleVMRef) :
    board (table.appendChild multiArticle article) =
      (board table).put (List.insertionSort (fileOrder table.objects)) multiArticle article := by
  simp only [board, appendChild, Board.put, Board.mk.injEq, and_true]
  apply List.ext_getElem?
  intro entry
  simp only [List.getElem?_map, List.getElem?_modify]
  by_cases same : multiArticle = entry
  · cases table.outlines[entry]? with
    | none => simp
    | some outline => simp [same]
  · simp [same]

/-! ## The first `if` of `addArticle` -/

def Cached (table : ArticlesTableVM) (articleId : Text) : Prop := (table.articleCache.lookup articleId).isSome

def Displayed (table : ArticlesTableVM) (articleId : Text) : Prop :=
  (table.displayedCache.lookup articleId).isSome

/-- The table after the assignments to a cached entry's article. -/
def touched (article : ArticleVMRef) (table : ArticlesTableVM) : ArticlesTableVM :=
  match table.articleCache.lookup (table.idOf article) with
  | some cArticle => table.updateArticle cArticle (table.objects article)
  | none => table

/-- The two tables differ in subjects and content types of articles only, those of `article` being
    the same in both. -/
structure Alike (article : ArticleVMRef) (table later : ArticlesTableVM) : Prop where
  board : board later = board table
  articleCache : later.articleCache = table.articleCache
  displayedCache : later.displayedCache = table.displayedCache
  articles : later.articles = table.articles
  equality : later.equality = table.equality
  ids : ∀ other, (later.objects other).id = (table.objects other).id
  subject : (later.objects article).subject = (table.objects article).subject

theorem touched_alike (article : ArticleVMRef) (table : ArticlesTableVM) :
    Alike article table (touched article table) := by
  unfold touched
  split
  · rename_i cArticle _
    unfold updateArticle
    cases found : table.outlines[cArticle]? with
    | none => exact ⟨rfl, rfl, rfl, rfl, rfl, fun _ => rfl, rfl⟩
    | some outline =>
      refine ⟨rfl, rfl, rfl, rfl, rfl, fun other => ?_, ?_⟩
      · by_cases same : other = outline.article
        · simp [same]
        · simp [Function.update_of_ne same]
      · -- the entry's article may be the very object that is added
        by_cases same : article = outline.article
        · simp [same]
        · simp [Function.update_of_ne same]
  · exact ⟨rfl, rfl, rfl, rfl, rfl, fun _ => rfl, rfl⟩

theorem Alike.idOf {article : ArticleVMRef} {later : ArticlesTableVM} (alike : Alike article table later)
    (other : ArticleVMRef) : later.idOf other = table.idOf other := by
  rw [ArticlesTableVM.idOf, alike.equality, alike.ids]
  rfl

theorem addArticle_eq (article : ArticleVMRef) (table : ArticlesTableVM) :
    (Cached table (table.idOf article) ∧ Displayed table (table.idOf article) →
        table.addArticle article = touched article table) ∧
      (¬ (Cached table (table.idOf article) ∧ Displayed table (table.idOf article)) →
        table.addArticle article = (touched article table).insertArticle article) := by
  have alike := touched_alike article table
  unfold addArticle touched Cached Displayed at *
  cases found : table.articleCache.lookup (table.idOf article) with
  | none => simp [found]
  | some cArticle =>
    simp only [found] at alike ⊢
    rw [alike.displayedCache]
    constructor
    · intro both
      rw [if_pos both.2]
    · intro notBoth
      rw [if_neg fun displayed => notBoth ⟨rfl, displayed⟩]

/-! ## What one call adds to the table -/

/-- The call shows nothing: its article has no subject, or stands in both caches. -/
def Ignored (table : ArticlesTableVM) (article : ArticleVMRef) : Prop :=
  (table.objects article).subject = [] ∨
    (Cached table (table.idOf article) ∧ Displayed table (table.idOf article))

/-- The article is a part of a post whose entry is not among `articles`. -/
def Lost (table : ArticlesTableVM) (article : ArticleVMRef) : Prop :=
  ∃ key entry, subjectMinusIndex (table.objects article).subject = some key ∧
    table.articleCache.lookup (table.equality.form key) = some entry ∧ entry ∉ table.articles

/-- What holds between calls. -/
structure WellFormed (table : ArticlesTableVM) : Prop where
  valid : (board table).Valid
  shown : ∀ articleId ∈ table.shownIds, Displayed table articleId

/-- After the call the table shows the articles of before, and `more`. -/
structure Shows (more : List Text) (table later : ArticlesTableVM) : Prop where
  valid : (board later).Valid
  shown : later.shownIds.Perm (table.shownIds ++ more)
  ids : ∀ other, later.idOf other = table.idOf other

theorem shownIds_congr {later : ArticlesTableVM} (same : board later = board table)
    (ids : ∀ other, later.idOf other = table.idOf other) :
    later.shownIds = table.shownIds := by
  rw [shownIds_eq, shownIds_eq, same, funext ids]

theorem addSingle_shows (valid : (board table).Valid) (article : ArticleVMRef) :
    Shows [table.idOf article] table (table.addSingle article) where
  valid := board_addSingle table article ▸ valid.addVisible article
  shown := by
    rw [shownIds_eq, shownIds_eq, board_addSingle, Board.items_addVisible valid, List.map_append]
    exact List.Perm.refl _
  ids _ := rfl

theorem addPart_shows (valid : (board table).Valid) (article : ArticleVMRef) (key : Text) :
    (∀ entry, table.articleCache.lookup (table.equality.form key) = some entry → entry ∉ table.articles →
        Shows [] table (table.addPart key article)) ∧
      ((∀ entry, table.articleCache.lookup (table.equality.form key) = some entry → entry ∈ table.articles) →
        Shows [table.idOf article] table (table.addPart key article)) := by
  unfold addPart
  cases found : table.articleCache.lookup (table.equality.form key) with
  | none =>
    have same : board ((table.addSingle article).cache key (table.newOutline article).1) =
        (board table).addVisible article := by
      rw [board_cache, board_addSingle]
    refine ⟨fun entry absent => by simp at absent, fun _ => ⟨?_, ?_, fun _ => rfl⟩⟩
    · exact same ▸ valid.addVisible article
    · show (shownIds ((table.addSingle article).cache key (table.newOutline article).1)).Perm _
      rw [shownIds_eq, shownIds_eq, same, Board.items_addVisible valid, List.map_append]
      exact List.Perm.refl _
  | some multiArticle =>
    dsimp only
    constructor
    · intro entry isEntry hidden
      cases isEntry
      refine ⟨?_, ?_, fun _ => rfl⟩
      · rw [board_appendChild]
        exact valid.put _ _ _
      · rw [shownIds_eq, shownIds_eq, board_appendChild, Board.items_put_hidden _ _ hidden, List.append_nil]
        exact List.Perm.refl _
    · intro visible
      refine ⟨?_, ?_, fun _ => rfl⟩
      · rw [board_appendChild]
        exact valid.put _ _ _
      · have put := Board.items_put_visible _ article valid
          (List.perm_insertionSort (fileOrder table.objects)) (visible multiArticle rfl)
        rw [shownIds_eq, shownIds_eq, board_appendChild]
        have mapped := put.map table.idOf
        rw [List.map_append] at mapped
        exact mapped

theorem Shows.of_alike {article : ArticleVMRef} {middle later : ArticlesTableVM} {more : List Text}
    (alike : Alike article table middle) (fromMiddle : Shows more middle later) : Shows more table later where
  valid := fromMiddle.valid
  shown := by
    rw [← shownIds_congr alike.board alike.idOf]
    exact fromMiddle.shown
  ids other := (fromMiddle.ids other).trans (alike.idOf other)

theorem addArticle_ignored (valid : (board table).Valid) {article : ArticleVMRef}
    (ignored : Ignored table article) :
    Shows [] table (table.addArticle article) ∧
      (table.addArticle article).displayedCache = table.displayedCache := by
  have alike := touched_alike article table
  obtain ⟨early, late⟩ := addArticle_eq article table
  by_cases both : Cached table (table.idOf article) ∧ Displayed table (table.idOf article)
  · rw [early both]
    refine ⟨⟨alike.board ▸ valid, ?_, alike.idOf⟩, alike.displayedCache⟩
    rw [shownIds_congr alike.board alike.idOf, List.append_nil]
  · have blank := ignored.resolve_right both
    have blankHere : ((touched article table).objects article).subject = [] := alike.subject.trans blank
    have validHere : (board (touched article table)).Valid := alike.board ▸ valid
    rw [late both, insertArticle]
    dsimp only
    rw [if_pos blankHere]
    refine ⟨Shows.of_alike alike ⟨?_, ?_, fun _ => rfl⟩, alike.displayedCache⟩
    · rw [board_cache, board_newOutline]
      exact validHere.addHidden article
    · rw [shownIds_eq, shownIds_eq, board_cache, board_newOutline, Board.items_addHidden validHere,
        List.append_nil]
      exact List.Perm.refl _

theorem addArticle_named (valid : (board table).Valid) {article : ArticleVMRef}
    (named : ¬ Ignored table article) :
    (Lost table article → Shows [] table (table.addArticle article)) ∧
      (¬ Lost table article → Shows [table.idOf article] table (table.addArticle article)) ∧
      (table.addArticle article).displayedCache =
        table.displayedCache.insert (table.idOf article) (table.objects article).id := by
  have alike := touched_alike article table
  obtain ⟨subject, late⟩ := not_or.mp named
  have subjectHere : ((touched article table).objects article).subject ≠ [] := by
    rw [alike.subject]
    exact subject
  rw [(addArticle_eq article table).2 late, insertArticle]
  dsimp only
  rw [if_neg subjectHere, alike.subject, alike.ids]
  -- the branches start from the table whose `displayedCache` has the id already
  let displayed := (touched article table).display (table.objects article).id
  have validHere : (board displayed).Valid := by
    rw [board_display, alike.board]
    exact valid
  have fromHere : ∀ {more : List Text} {later : ArticlesTableVM}, Shows more displayed later →
      Shows more table later := by
    intro more later shown
    exact Shows.of_alike alike ⟨shown.valid, shown.shown, shown.ids⟩
  cases key : subjectMinusIndex (table.objects article).subject with
  | none =>
    have single := addSingle_shows validHere article
    refine ⟨fun lost => ?_, fun _ => ?_, ?_⟩
    · obtain ⟨_, _, isPart, _⟩ := lost
      rw [key] at isPart
      cases isPart
    · have shown := fromHere single
      rw [show displayed.idOf article = table.idOf article from alike.idOf article] at shown
      exact shown
    · show (touched article table).displayedCache.insert ((touched article table).equality.form _) _ = _
      rw [alike.displayedCache, alike.equality]
      rfl
  | some key' =>
    obtain ⟨hidden, visible⟩ := addPart_shows validHere article key'
    have lookup : displayed.articleCache.lookup (displayed.equality.form key') =
        table.articleCache.lookup (table.equality.form key') := by
      show (touched article table).articleCache.lookup ((touched article table).equality.form key') = _
      rw [alike.articleCache, alike.equality]
    have entries : displayed.articles = table.articles := alike.articles
    rw [lookup, entries] at hidden visible
    refine ⟨fun lost => ?_, fun kept => ?_, ?_⟩
    · obtain ⟨_, entry, isPart, isEntry, absent⟩ := lost
      rw [key] at isPart
      cases isPart
      exact fromHere (hidden entry isEntry absent)
    · have shown := fromHere (visible fun entry isEntry => by
        by_contra absent
        exact kept ⟨key', entry, key, isEntry, absent⟩)
      rw [show displayed.idOf article = table.idOf article from alike.idOf article] at shown
      exact shown
    · have same : (displayed.addPart key' article).displayedCache = displayed.displayedCache := by
        unfold addPart
        split <;> rfl
      dsimp only
      rw [same]
      show (touched article table).displayedCache.insert ((touched article table).equality.form _) _ = _
      rw [alike.displayedCache, alike.equality]
      rfl

/-! ## Runs -/

/-- Every id that was displayed stands once in the table. -/
def Good (table : ArticlesTableVM) : Prop :=
  ∀ articleId, Displayed table articleId → table.shownIds.count articleId = 1

/-- An article with a subject that does not return early is lost exactly if its id has been
    displayed before. -/
def Placed (table : ArticlesTableVM) (article : ArticleVMRef) : Prop :=
  ¬ Ignored table article → (Displayed table (table.idOf article) ↔ Lost table article)

theorem displayed_insert {later : ArticlesTableVM} {articleId value : Text}
    (inserted : later.displayedCache = table.displayedCache.insert articleId value) (other : Text) :
    Displayed later other ↔ other = articleId ∨ Displayed table other := by
  unfold Displayed
  rw [inserted]
  by_cases same : other = articleId
  · subst same
    simp
  · rw [AList.lookup_insert_ne same]
    simp [same]

theorem WellFormed.addArticle (wellFormed : WellFormed table) (article : ArticleVMRef) :
    WellFormed (table.addArticle article) := by
  by_cases ignored : Ignored table article
  · obtain ⟨shows_, cache⟩ := addArticle_ignored wellFormed.valid ignored
    refine ⟨shows_.valid, fun articleId shown => ?_⟩
    have old := wellFormed.shown articleId (by simpa using shows_.shown.mem_iff.mp shown)
    unfold Displayed at *
    rw [cache]
    exact old
  · obtain ⟨hidden, visible, cache⟩ := addArticle_named wellFormed.valid ignored
    by_cases lost : Lost table article
    · have shows_ := hidden lost
      refine ⟨shows_.valid, fun articleId shown => ?_⟩
      rw [displayed_insert cache]
      exact Or.inr (wellFormed.shown articleId (by simpa using shows_.shown.mem_iff.mp shown))
    · have shows_ := visible lost
      refine ⟨shows_.valid, fun articleId shown => ?_⟩
      rw [displayed_insert cache]
      rcases List.mem_append.mp (shows_.shown.mem_iff.mp shown) with old | new
      · exact Or.inr (wellFormed.shown articleId old)
      · exact Or.inl (List.mem_singleton.mp new)

/-- One call keeps the table good exactly if its article is placed. -/
theorem good_addArticle_iff (wellFormed : WellFormed table) (good : Good table) (article : ArticleVMRef) :
    Good (table.addArticle article) ↔ Placed table article := by
  by_cases ignored : Ignored table article
  · obtain ⟨shows_, cache⟩ := addArticle_ignored wellFormed.valid ignored
    refine iff_of_true (fun articleId displayed => ?_) fun named => absurd ignored named
    rw [shows_.shown.count_eq, List.append_nil]
    unfold Displayed at displayed
    rw [cache] at displayed
    exact good articleId displayed
  · obtain ⟨hidden, visible, cache⟩ := addArticle_named wellFormed.valid ignored
    unfold Placed
    rw [imp_iff_right ignored]
    by_cases lost : Lost table article
    · -- the article is not shown, so it must have been shown before
      rw [iff_true_right lost]
      have count := fun articleId => (hidden lost).shown.count_eq articleId
      simp only [List.append_nil] at count
      constructor
      · intro goodLater
        have once := goodLater _ ((displayed_insert cache _).mpr (Or.inl rfl))
        rw [count] at once
        exact wellFormed.shown _ (List.count_pos_iff.mp (by omega))
      · intro displayed articleId displayedLater
        rw [count]
        rcases (displayed_insert cache articleId).mp displayedLater with rfl | before
        · exact good _ displayed
        · exact good articleId before
    · -- the article is shown once more
      rw [iff_false_right lost]
      have count := fun articleId => (visible lost).shown.count_eq articleId
      simp only [List.count_append] at count
      constructor
      · intro goodLater displayed
        have once := goodLater _ ((displayed_insert cache _).mpr (Or.inl rfl))
        rw [count, good _ displayed] at once
        simp at once
      · intro undisplayed articleId displayedLater
        rw [count]
        rcases (displayed_insert cache articleId).mp displayedLater with rfl | before
        · have absent := List.count_eq_zero.mpr fun shown => undisplayed (wellFormed.shown _ shown)
          rw [absent]
          simp
        · have different : articleId ≠ table.idOf article := by
            intro same
            exact undisplayed (same ▸ before)
          rw [good articleId before, List.count_singleton]
          simp [different.symm]

theorem wellFormed_new (equality : StringEquality) (objects : ArticleVMRef → ArticleVM) :
    WellFormed (new equality objects) where
  valid := Board.valid_empty
  shown articleId shown := by simp [shownIds, new] at shown

theorem displayed_addArticle (wellFormed : WellFormed table) (article : ArticleVMRef) (articleId : Text) :
    Displayed (table.addArticle article) articleId ↔
      Displayed table articleId ∨
        (table.idOf article = articleId ∧ (table.objects article).subject ≠ []) := by
  by_cases ignored : Ignored table article
  · have cache := (addArticle_ignored wellFormed.valid ignored).2
    have same : Displayed (table.addArticle article) articleId ↔ Displayed table articleId := by
      unfold Displayed
      rw [cache]
    rw [same]
    refine ⟨Or.inl, ?_⟩
    rintro (before | ⟨rfl, subject⟩)
    · exact before
    · exact (ignored.resolve_left subject).2
  · have cache := (addArticle_named wellFormed.valid ignored).2.2
    have subject := (not_or.mp ignored).1
    rw [displayed_insert cache, or_comm]
    constructor
    · rintro (before | rfl)
      · exact Or.inl before
      · exact Or.inr ⟨rfl, subject⟩
    · rintro (before | ⟨rfl, -⟩)
      · exact Or.inl before
      · exact Or.inr rfl

variable (equality : StringEquality) (objects : ArticleVMRef → ArticleVM)

/-- The id has been added with a subject. Ids are those that the dictionaries compare. -/
def Named (calls : List ArticleVMRef) (articleId : Text) : Prop :=
  ∃ front article, front ++ [article] <+: calls ∧
    ((new equality objects).addArticles front).idOf article = articleId ∧
    (((new equality objects).addArticles front).objects article).subject ≠ []

theorem wellFormed_addArticles (calls : List ArticleVMRef) : WellFormed ((new equality objects).addArticles calls) :=
  Runs.invariant_foldl (fun (table : ArticlesTableVM) article => table.addArticle article)
    (fun _ article wellFormed => wellFormed.addArticle article) (wellFormed_new equality objects) calls

theorem displayed_iff_named (calls : List ArticleVMRef) (articleId : Text) :
    Displayed ((new equality objects).addArticles calls) articleId ↔ Named equality objects calls articleId := by
  -- over the calls from the front: the last call is the only one that can be new
  induction calls using List.reverseRecOn with
  | nil =>
    refine iff_of_false (by simp [Displayed, addArticles, new]) ?_
    rintro ⟨front, article, inside, -⟩
    simp at inside
  | append_singleton calls article inductionHypothesis =>
    have last : (new equality objects).addArticles (calls ++ [article]) =
        ((new equality objects).addArticles calls).addArticle article := by
      simp [addArticles]
    rw [last, displayed_addArticle (wellFormed_addArticles equality objects calls), inductionHypothesis]
    constructor
    · rintro (⟨front, other, inside, named⟩ | named)
      · exact ⟨front, other, inside.trans (List.prefix_append _ _), named⟩
      · exact ⟨calls, article, List.prefix_refl _, named⟩
    · rintro ⟨front, other, inside, named⟩
      rcases List.prefix_concat_iff.mp inside with whole | earlier
      · obtain ⟨rfl, isLast⟩ := List.append_inj' whole rfl
        cases isLast
        exact Or.inr named
      · exact Or.inl ⟨front, other, earlier, named⟩

/-! ## Every article is shown once -/

/-- The id stands in the children list of exactly one entry, and once in it. -/
def ShownOnce (table : ArticlesTableVM) (articleId : Text) : Prop :=
  ∃ front entry back, table.articles = front ++ entry :: back ∧
    (table.childIds entry).count articleId = 1 ∧
    ∀ other ∈ front ++ back, articleId ∉ table.childIds other

/-- At every moment of a run all ids with a subject are shown once, exactly if every call places
    its article. -/
theorem articles_shown_once_iff (calls : List ArticleVMRef) :
    (∀ front, front <+: calls → ∀ articleId, Named equality objects front articleId →
      ShownOnce ((new equality objects).addArticles front) articleId) ↔
    (∀ front article, front ++ [article] <+: calls → Placed ((new equality objects).addArticles front) article) := by
  have once : ∀ front, (∀ articleId, Named equality objects front articleId →
      ShownOnce ((new equality objects).addArticles front) articleId) ↔ Good ((new equality objects).addArticles front) := by
    intro front
    apply forall_congr'
    intro articleId
    rw [shownIds, count_flatMap_eq_one_iff, displayed_iff_named, ShownOnce]
  simp only [once]
  refine @Runs.foldl_prefixes_iff _ _ (fun table article => table.addArticle article) WellFormed Good Placed
    (fun _ article wellFormed => wellFormed.addArticle article)
    (fun _ article wellFormed good => good_addArticle_iff wellFormed good article)
    _ (wellFormed_new equality objects) ?_ calls
  intro articleId displayed
  simp [Displayed, new] at displayed

def twoParts : ArticleVMRef → ArticleVM
  | 0 => { id := "1".toList, subject := "a (1/2)".toList, contentType := [], size := 0, date := none }
  | _ => { id := "2".toList, subject := "a (2/2)".toList, contentType := [], size := 0, date := none }

/-- The second part of a post is shown twice when it is added twice. -/
theorem second_part_is_shown_twice :
    ¬ ∀ equality objects calls articleId, Named equality objects calls articleId →
      ShownOnce ((new equality objects).addArticles calls) articleId := by
  intro claim
  have named : Named scalarEquality twoParts [0, 1, 1] "2".toList :=
    ⟨[0], 1, by simp, by decide, by decide⟩
  have once := claim scalarEquality twoParts [0, 1, 1] "2".toList named
  have twice : ((new scalarEquality twoParts).addArticles [0, 1, 1]).shownIds.count "2".toList = 2 := by decide
  rw [ShownOnce, ← count_flatMap_eq_one_iff, ← shownIds, twice] at once
  cases once

end EasyNews.Verified.ShownArticles
