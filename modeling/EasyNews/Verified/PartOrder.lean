import EasyNews.Library.StableSort
import EasyNews.PartMarks
import EasyNews.Verified.ShownArticles

/-! # The order of the parts of a post

`addArticle` files a part under its subject without the `(n/m)` mark and sorts the children of the
entry by `fileNumber`, which knows `[a/b]` marks too and gives up on a subject with both. The
children stand in the order of their parts exactly as long as the two numbers agree on them.
-/

namespace EasyNews.Verified.PartOrder

open ArticlesTableVM ShownArticles Buckets StableSort

/-! ## The order of two parts -/

/-- The first part is not behind the second. -/
def InOrder (subject other : Text) : Prop :=
  ∀ number ∈ partNumber subject, ∀ otherNumber ∈ partNumber other, number ≤ otherNumber

theorem inOrder_refl (subject : Text) : InOrder subject subject := by
  intro number isNumber otherNumber isOther
  exact (Option.mem_unique isNumber isOther).le

/-- `addArticle` arranges the two as their parts are numbered, the first having been there first. -/
def Agrees (subject other : Text) : Prop :=
  if fileNumber subject ≤ fileNumber other then InOrder subject other else InOrder other subject

/-- In every entry of the table the children stand in the order of their parts. -/
def PartsInOrder (table : ArticlesTableVM) : Prop :=
  ∀ entry ∈ table.articles,
    (table.children entry).Pairwise fun article other =>
      InOrder (table.objects article).subject (table.objects other).subject

/-! ## What a call changes -/

variable (table : ArticlesTableVM) (article : ArticleVMRef)

/-- The article whose subject the call overwrites: the id of the new article is the key of its entry. -/
def overwritten : Option ArticleVMRef :=
  ((table.articleCache.lookup (table.idOf article)).bind (table.outlines[·]?)).map (·.article)

/-- The subject of each article from then on. -/
def subjectDuring (other : ArticleVMRef) : Text :=
  if overwritten table article = some other then (table.objects article).subject
  else (table.objects other).subject

instance : Decidable (Ignored table article) :=
  inferInstanceAs (Decidable ((table.objects article).subject = [] ∨
    ((table.articleCache.lookup (table.idOf article)).isSome ∧
      (table.displayedCache.lookup (table.idOf article)).isSome)))

/-- The entry the article joins. -/
def entryOfPost : Option OutlineRef :=
  if Ignored table article then none
  else (subjectMinusIndex (table.objects article).subject).bind fun key =>
    table.articleCache.lookup (table.equality.form key)

/-- The new subject of a child fits the place it has among the others of its entry. -/
def FitsPlace (subject : Text) (child : ArticleVMRef) (entry : OutlineRef) : Prop :=
  ∀ front back, table.children entry = front ++ child :: back →
    (∀ other ∈ front, other ≠ child → InOrder (table.objects other).subject subject) ∧
      ∀ other ∈ back, other ≠ child → InOrder subject (table.objects other).subject

/-- What the call must find for the children to stay in order. -/
structure KeepsOrder : Prop where
  /-- Where the overwritten article stands, the parts before it have no greater number than the new subject
      and those behind it no lower one. -/
  overwriting : ∀ child, overwritten table article = some child →
    ∀ entry ∈ table.articles, entryOfPost table article ≠ some entry →
      FitsPlace table (table.objects article).subject child entry
  /-- The file numbers arrange the children and the new one as their parts are numbered. -/
  joining : ∀ entry ∈ table.articles, entryOfPost table article = some entry →
    (table.children entry ++ [article]).Pairwise fun child other =>
      Agrees (subjectDuring table article child) (subjectDuring table article other)

theorem updateArticle_subject (cArticle : OutlineRef) (new : ArticleVM) (other : ArticleVMRef) :
    ((table.updateArticle cArticle new).objects other).subject =
      if table.outlines[cArticle]?.map (·.article) = some other then new.subject
      else (table.objects other).subject := by
  unfold updateArticle
  split
  · rename_i outline found
    rw [found]
    by_cases same : other = outline.article
    · simp [same]
    · simp [Function.update_of_ne same, Ne.symm same]
  · rename_i absent
    rw [absent]
    simp

theorem touched_subject (other : ArticleVMRef) :
    ((touched article table).objects other).subject = subjectDuring table article other := by
  unfold touched subjectDuring overwritten
  cases table.articleCache.lookup (table.idOf article) with
  | none => simp
  | some cArticle =>
    dsimp only [Option.bind_some]
    exact updateArticle_subject table cArticle (table.objects article) other

/-- The buckets and the entries after the call. -/
structure Changed (later : ArticlesTableVM) : Prop where
  subjects : ∀ other, (later.objects other).subject = subjectDuring table article other
  joins : ∀ entry, entryOfPost table article = some entry →
    board later = (board table).put (List.insertionSort (fileOrder (touched article table).objects)) entry article
  ignored : Ignored table article → board later = board table ∨ board later = (board table).addHidden article
  alone : ¬ Ignored table article → entryOfPost table article = none → board later = (board table).addVisible article

theorem entryOfPost_of_ignored (ignored : Ignored table article) : entryOfPost table article = none := if_pos ignored

theorem addPart_changed {middle : ArticlesTableVM} (key : Text) (named : ¬ Ignored table article)
    (subjects : ∀ other, (middle.objects other).subject = subjectDuring table article other)
    (sameBoard : board middle = board table) (sameCache : middle.articleCache = table.articleCache)
    (sameOrder : middle.objects = (touched article table).objects) (sameEquality : middle.equality = table.equality)
    (isJoined : entryOfPost table article = table.articleCache.lookup (table.equality.form key)) :
    Changed table article (middle.addPart key article) := by
  unfold addPart
  rw [sameCache, sameEquality]
  -- the first part makes an entry of its own, a later one joins as a child
  cases found : table.articleCache.lookup (table.equality.form key) with
  | none =>
    refine ⟨subjects, fun entry isEntry => ?_, fun ignored => absurd ignored named, fun _ _ => ?_⟩
    · rw [isJoined, found] at isEntry
      cases isEntry
    · show board ((middle.addSingle article).cache key _) = _
      rw [board_cache, board_addSingle, sameBoard]
  | some multiArticle =>
    refine ⟨subjects, fun entry isEntry => ?_, fun ignored => absurd ignored named, fun _ isNone => ?_⟩
    · rw [isJoined, found] at isEntry
      cases isEntry
      rw [board_appendChild, sameBoard, sameOrder]
    · rw [isJoined, found] at isNone
      cases isNone

theorem changed_of_ignored {later : ArticlesTableVM} (ignored : Ignored table article)
    (subjects : ∀ other, (later.objects other).subject = subjectDuring table article other)
    (boards : board later = board table ∨ board later = (board table).addHidden article) :
    Changed table article later where
  subjects
  joins entry isEntry := by
    rw [entryOfPost_of_ignored table article ignored] at isEntry
    cases isEntry
  ignored _ := boards
  alone named := absurd ignored named

theorem addArticle_changed : Changed table article (table.addArticle article) := by
  have alike := touched_alike article table
  have subjects := touched_subject table article
  obtain ⟨early, late⟩ := addArticle_eq article table
  -- the guards of `addArticle` in their order: already shown, no subject, no index in the subject
  by_cases both : Cached table (table.idOf article) ∧ Displayed table (table.idOf article)
  · rw [early both]
    exact changed_of_ignored table article (.inr both) subjects (.inl alike.board)
  · rw [late both, insertArticle]
    dsimp only
    rw [alike.subject]
    by_cases blank : (table.objects article).subject = []
    · rw [if_pos blank]
      refine changed_of_ignored table article (.inl blank) subjects (.inr ?_)
      rw [board_cache, board_newOutline, alike.board]
    · rw [if_neg blank]
      have named : ¬ Ignored table article := not_or.mpr ⟨blank, both⟩
      have isJoined : entryOfPost table article =
          (subjectMinusIndex (table.objects article).subject).bind fun key =>
            table.articleCache.lookup (table.equality.form key) := if_neg named
      cases key : subjectMinusIndex (table.objects article).subject with
      | none =>
        rw [key] at isJoined
        refine ⟨subjects, fun entry isEntry => ?_, fun ignored => absurd ignored named, fun _ _ => ?_⟩
        · rw [isJoined] at isEntry
          cases isEntry
        · dsimp only
          rw [board_addSingle, board_display, alike.board]
      | some subjectMinusIndex =>
        rw [key] at isJoined
        exact addPart_changed table article subjectMinusIndex named subjects alike.board alike.articleCache rfl
          alike.equality isJoined

/-! ## One call -/

instance (objects : ArticleVMRef → ArticleVM) : Std.Total (fileOrder objects) :=
  ⟨fun a b => Int.le_total (fileNumber (objects a).subject) (fileNumber (objects b).subject)⟩

instance (objects : ArticleVMRef → ArticleVM) : IsTrans ArticleVMRef (fileOrder objects) :=
  ⟨fun _ _ _ first second => Int.le_trans first second⟩

/-- The order of the parts once the call has assigned the subject. -/
def OrderDuring (child other : ArticleVMRef) : Prop :=
  InOrder (subjectDuring table article child) (subjectDuring table article other)

theorem afterSort_iff_agrees (child other : ArticleVMRef) :
    AfterSort (fileOrder (touched article table).objects) (OrderDuring table article) child other ↔
      Agrees (subjectDuring table article child) (subjectDuring table article other) := by
  unfold AfterSort Agrees OrderDuring fileOrder
  simp only [touched_subject]

variable {table article}

theorem partsInOrder_iff {later : ArticlesTableVM} (changed : Changed table article later) :
    PartsInOrder later ↔
      ∀ entry ∈ (board later).visible, ((board later).bucket entry).Pairwise (OrderDuring table article) := by
  unfold PartsInOrder OrderDuring
  rw [children_eq_bucket]
  simp only [changed.subjects]
  rfl

/-- The overwritten subject fits where it stands in the entry. -/
def OverwritesWell (table : ArticlesTableVM) (article : ArticleVMRef) (entry : OutlineRef) : Prop :=
  ∀ child, overwritten table article = some child → FitsPlace table (table.objects article).subject child entry

theorem subjectDuring_of_ne {child other : ArticleVMRef} (renamed : overwritten table article = some child)
    (different : other ≠ child) : subjectDuring table article other = (table.objects other).subject := by
  rw [subjectDuring, renamed, if_neg fun same => different (Option.some.inj same).symm]

theorem subjectDuring_self {child : ArticleVMRef} (renamed : overwritten table article = some child) :
    subjectDuring table article child = (table.objects article).subject := by
  rw [subjectDuring, if_pos renamed]

/-- An entry that is not joined stays in order exactly if an overwritten subject fits its place. -/
theorem pairwise_orderDuring_iff (inOrder : PartsInOrder table) {entry : OutlineRef}
    (visible : entry ∈ table.articles) :
    ((board table).bucket entry).Pairwise (OrderDuring table article) ↔ OverwritesWell table article entry := by
  rw [← children_eq_bucket]
  have before := inOrder entry visible
  cases renamed : overwritten table article with
  | none =>
    have same : ∀ other, subjectDuring table article other = (table.objects other).subject := by
      intro other
      rw [subjectDuring, renamed, if_neg (by simp)]
    constructor
    · intro _ child isChild
      rw [renamed] at isChild
      cases isChild
    · intro _
      unfold OrderDuring
      simpa only [same] using before
  | some child =>
    have others : ∀ x y, x ≠ child → y ≠ child →
        (OrderDuring table article x y ↔ InOrder (table.objects x).subject (table.objects y).subject) := by
      intro x y notFirst notSecond
      rw [OrderDuring, subjectDuring_of_ne renamed notFirst, subjectDuring_of_ne renamed notSecond]
    rw [pairwise_changed_iff before others (inOrder_refl _)]
    have fits : OverwritesWell table article entry ↔ FitsPlace table (table.objects article).subject child entry := by
      constructor
      · exact fun overwrites => overwrites child renamed
      · intro fits other isOther
        rw [renamed] at isOther
        cases isOther
        exact fits
    rw [fits, FitsPlace]
    refine forall₃_congr fun front back _ => and_congr ?_ ?_
    · refine forall₃_congr fun other _ different => ?_
      rw [OrderDuring, subjectDuring_of_ne renamed different, subjectDuring_self renamed]
    · refine forall₃_congr fun other _ different => ?_
      rw [OrderDuring, subjectDuring_of_ne renamed different, subjectDuring_self renamed]

theorem partsInOrder_alone_iff (wellFormed : WellFormed table) (inOrder : PartsInOrder table)
    (isJoined : entryOfPost table article = none) :
    PartsInOrder (table.addArticle article) ↔ KeepsOrder table article := by
  have changed := addArticle_changed table article
  have valid := wellFormed.valid
  have keeps : KeepsOrder table article ↔
      ∀ entry ∈ table.articles, ((board table).bucket entry).Pairwise (OrderDuring table article) := by
    constructor
    · intro keeps entry visible
      exact (pairwise_orderDuring_iff inOrder visible).mpr fun child renamed =>
        keeps.overwriting child renamed entry visible (by simp [isJoined])
    · intro ordered
      refine ⟨fun child renamed entry visible _ => ?_, fun entry _ isEntry => ?_⟩
      · exact (pairwise_orderDuring_iff inOrder visible).mp (ordered entry visible) child renamed
      · rw [isJoined] at isEntry
        cases isEntry
  rw [partsInOrder_iff changed, keeps]
  have hiddenEntry : ∀ entry ∈ table.articles,
      ((board table).addHidden article).bucket entry = (board table).bucket entry := fun entry visible =>
    Board.bucket_addHidden article (valid.exist entry visible)
  by_cases ignored : Ignored table article
  · obtain same | same := changed.ignored ignored
    · rw [same]
      rfl
    · rw [same]
      exact forall₂_congr fun entry visible => by rw [hiddenEntry entry visible]
  · rw [changed.alone ignored isJoined]
    have newEntry : ((board table).addVisible article).bucket (board table).buckets.length = [article] := by
      simp [Board.bucket, Board.addVisible, List.getD_eq_getElem?_getD]
    constructor
    · intro ordered entry visible
      have here := ordered entry (List.mem_append_left _ visible)
      rw [← hiddenEntry entry visible]
      exact here
    · intro ordered entry visible
      cases List.mem_append.mp visible with
      | inl before =>
        have here := ordered entry before
        rw [← hiddenEntry entry before] at here
        exact here
      | inr isNew =>
        rw [List.mem_singleton.mp isNew, newEntry]
        exact List.pairwise_singleton _ _

/-- A call whose article joins an entry: its children and the article are sorted. -/
theorem partsInOrder_joined_iff (wellFormed : WellFormed table) (inOrder : PartsInOrder table)
    {joinedEntry : OutlineRef} (isJoined : entryOfPost table article = some joinedEntry) :
    PartsInOrder (table.addArticle article) ↔ KeepsOrder table article := by
  have changed := addArticle_changed table article
  have arranged := changed.joins joinedEntry isJoined
  -- every other entry keeps its children where they are
  have others : ∀ entry, entry ≠ joinedEntry →
      (board (table.addArticle article)).bucket entry = (board table).bucket entry := by
    intro entry different
    rw [arranged]
    exact Board.bucket_put_of_ne _ _ different
  -- the sort runs over the joined entry only, with the comparison of that moment
  have here : joinedEntry ∈ table.articles →
      (((board (table.addArticle article)).bucket joinedEntry).Pairwise (OrderDuring table article) ↔
        (table.children joinedEntry ++ [article]).Pairwise fun child other =>
          Agrees (subjectDuring table article child) (subjectDuring table article other)) := by
    intro visible
    rw [arranged, Board.bucket_put _ _ (wellFormed.valid.exist joinedEntry visible), pairwise_insertionSort_iff]
    rw [children_eq_bucket]
    exact List.Pairwise.iff (afterSort_iff_agrees table article)
  have visibleSame : (board (table.addArticle article)).visible = table.articles := by
    rw [arranged]
    rfl
  rw [partsInOrder_iff changed, visibleSame]
  constructor
  · intro ordered
    refine ⟨fun child renamed entry visible notJoined => ?_, fun entry visible isEntry => ?_⟩
    · have different : entry ≠ joinedEntry := fun same => notJoined (same ▸ isJoined)
      have ordering := ordered entry visible
      rw [others entry different] at ordering
      exact (pairwise_orderDuring_iff inOrder visible).mp ordering child renamed
    · rw [isJoined] at isEntry
      cases isEntry
      exact (here visible).mp (ordered joinedEntry visible)
  · intro keeps entry visible
    by_cases same : entry = joinedEntry
    · subst same
      exact (here visible).mpr (keeps.joining entry visible isJoined)
    · rw [others entry same]
      refine (pairwise_orderDuring_iff inOrder visible).mpr fun child renamed => ?_
      refine keeps.overwriting child renamed entry visible fun isEntry => ?_
      rw [isJoined] at isEntry
      cases isEntry
      exact same rfl

theorem partsInOrder_addArticle_iff (wellFormed : WellFormed table) (inOrder : PartsInOrder table) :
    PartsInOrder (table.addArticle article) ↔ KeepsOrder table article := by
  cases isJoined : entryOfPost table article with
  | none => exact partsInOrder_alone_iff wellFormed inOrder isJoined
  | some joinedEntry => exact partsInOrder_joined_iff wellFormed inOrder isJoined

/-! ## Runs -/

/-- The parts stand in order after every call exactly if every call finds what it must find. -/
theorem parts_in_order_iff (equality : StringEquality) (objects : ArticleVMRef → ArticleVM)
    (calls : List ArticleVMRef) :
    (∀ front, front <+: calls → PartsInOrder ((new equality objects).addArticles front)) ↔
      ∀ front article, front ++ [article] <+: calls →
        KeepsOrder ((new equality objects).addArticles front) article := by
  refine @Runs.foldl_prefixes_iff _ _ (fun table article => table.addArticle article) WellFormed PartsInOrder
    KeepsOrder (fun _ article wellFormed => wellFormed.addArticle article)
    (fun _ _ wellFormed inOrder => partsInOrder_addArticle_iff wellFormed inOrder)
    _ (wellFormed_new equality objects) ?_ calls
  intro entry visible
  cases visible

/-- Two parts of a post whose subjects carry a file index too, the second part first. -/
def indexedParts : ArticleVMRef → ArticleVM
  | 0 => { id := "1".toList, subject := "[1/9] a (2/2)".toList, contentType := [], size := 0, date := none }
  | _ => { id := "2".toList, subject := "[1/9] a (1/2)".toList, contentType := [], size := 0, date := none }

theorem indexed_parts_out_of_order :
    ¬ PartsInOrder ((new scalarEquality indexedParts).addArticles [0, 1]) ∧
    ((new scalarEquality indexedParts).addArticles [0, 1]).articles.map
      ((new scalarEquality indexedParts).addArticles [0, 1]).children = [[0, 1]] ∧
    partNumber (indexedParts 0).subject = some 2 ∧ partNumber (indexedParts 1).subject = some 1 := by
  have children : ((new scalarEquality indexedParts).addArticles [0, 1]).children 0 = [0, 1] := by decide
  refine ⟨fun inOrder => ?_, by decide, by decide, by decide⟩
  have pair := inOrder 0 (by decide)
  rw [children] at pair
  have wrong := (List.pairwise_cons.mp pair).1 1 (by simp) 2 (by decide) 1 (by decide)
  revert wrong
  decide

end EasyNews.Verified.PartOrder
