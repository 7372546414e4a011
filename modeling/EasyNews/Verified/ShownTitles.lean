import EasyNews.Verified.PartOrder

/-! # The title of an entry

`addArticle` strips the `(n/m)` mark of a subject to find its entry, and the outline strips a mark
of either kind to show a title. The same steps over two regular expressions: they come to the same
exactly on the subjects for which both expressions find one match, or neither does, or nothing is
stripped. The children of an entry have one title as long as `articleCache`, whose keys are ids too,
finds the entry of the post and no other.
-/

namespace EasyNews.Verified.ShownTitles

open ArticlesTableVM ShownArticles PartOrder Buckets

/-! ## One subject -/

section Subjects

variable (equality : StringEquality)

/-- A part of a post is shown under the key of its entry, any other subject as it is. -/
def TitleAgrees (subject : Text) : Prop :=
  match subjectMinusIndex subject with
  | some key => equality.form (nudeSubject subject) = equality.form key
  | none => equality.form (nudeSubject subject) = equality.form subject

/-- Stripping the mark comes to nothing: wherever it stands a scalar joins its bracket, and there is nothing
    to trim. -/
structure Inert (subject mark : Text) : Prop where
  unseen : contains subject mark = false
  trimmed : equality.form (trimmingCharacters isWhitespace subject) = equality.form subject

/-- The marks of the other style make no difference. -/
structure OneStyle (subject : Text) : Prop where
  /-- One `(n/m)` mark stands alone. -/
  round : ∀ mark, regexMatches partMark subject = [mark] →
    regexMatches squareMark subject = [] ∨ Inert equality subject mark
  /-- Without `(n/m)` marks there is no single `[n/m]` mark. -/
  square : regexMatches partMark subject = [] →
    ∀ mark, regexMatches squareMark subject = [mark] → Inert equality subject mark

end Subjects

theorem count_removingOccurrences_le (target text : Text) (taken : Nat) (bracket : Char) :
    (removingOccurrences target text taken).count bracket ≤ text.count bracket := by
  induction text generalizing taken with
  | nil => cases taken <;> exact Nat.le_refl _
  | cons symbol rest inductionHypothesis =>
    cases taken with
    | succ taken => exact (inductionHypothesis taken).trans List.count_le_count_cons
    | zero =>
      rw [removingOccurrences]
      split
      · exact (inductionHypothesis _).trans List.count_le_count_cons
      · rw [List.count_cons, List.count_cons]
        exact Nat.add_le_add_right (inductionHypothesis 0) _

theorem contains_cons (symbol : Char) (rest target : Text) :
    contains (symbol :: rest) target = (starts (symbol :: rest) target || contains rest target) := by
  rw [contains, List.tails_cons, List.any_cons, contains]

theorem count_removingOccurrences_lt {bracket : Char} {more text : Text}
    (inside : contains text (bracket :: more) = true) :
    (removingOccurrences (bracket :: more) text).count bracket < text.count bracket := by
  induction text with
  | nil => exact absurd inside (by simp [contains, starts])
  | cons symbol rest inductionHypothesis =>
    rw [removingOccurrences]
    split
    · rename_i here
      obtain ⟨back, isHere, -⟩ := starts_iff.mp here.2
      have isBracket : symbol = bracket := (List.cons.inj isHere).1
      rw [isBracket, List.count_cons_self]
      exact Nat.lt_succ_of_le (count_removingOccurrences_le _ rest _ bracket)
    · rename_i notHere
      have notBegun : starts (symbol :: rest) (bracket :: more) = false :=
        Bool.eq_false_iff.mpr fun begun => notHere ⟨List.cons_ne_nil _ _, begun⟩
      rw [contains_cons, notBegun, Bool.false_or] at inside
      rw [List.count_cons, List.count_cons]
      exact Nat.add_lt_add_right (inductionHypothesis inside) _

theorem removingOccurrences_unseen {target text : Text} (unseen : contains text target = false) :
    removingOccurrences target text = text := by
  induction text with
  | nil => rfl
  | cons symbol rest inductionHypothesis =>
    rw [contains_cons, Bool.or_eq_false_iff] at unseen
    rw [removingOccurrences, if_neg, inductionHypothesis unseen.2]
    rw [unseen.1]
    exact fun begun => Bool.false_ne_true begun.2

theorem trimmingCharacters_sublist (inSet : Char → Bool) (text : Text) :
    (trimmingCharacters inSet text).Sublist text :=
  (List.rdropWhile_prefix _ _).sublist.trans (List.dropWhile_sublist _)

theorem mark_eq_cons {subject mark : Text} (isMark : mark ∈ regexMatches fileMark subject) :
    ∃ bracket ∈ "()[]".toList, ∃ more, mark = bracket :: more := by
  obtain ⟨back, -, found⟩ := regexMatches_mem isMark
  change (partMark back <|> squareMark back) = some mark at found
  cases isPart : partMark back with
  | some part =>
    rw [isPart] at found
    cases found
    obtain ⟨number, count, -, -, shape, -⟩ := matchIndex_eq_some isPart
    exact ⟨'(', by decide, _, shape⟩
  | none =>
    rw [isPart] at found
    obtain ⟨number, count, -, -, shape, -⟩ := matchIndex_eq_some found
    exact ⟨'[', by decide, _, shape⟩

variable {equality : StringEquality} {subject : Text}

theorem stripped_eq_iff {mark : Text} (isMark : mark ∈ regexMatches fileMark subject) :
    equality.form (trimmingCharacters isWhitespace (removingOccurrences mark subject)) = equality.form subject ↔
      Inert equality subject mark := by
  obtain ⟨bracket, isBracket, more, rfl⟩ := mark_eq_cons isMark
  cases seen : contains subject (bracket :: more) with
  | false =>
    rw [removingOccurrences_unseen seen]
    exact ⟨fun trimmed => ⟨seen, trimmed⟩, fun inert => inert.trimmed⟩
  | true =>
    refine iff_of_false (fun same => ?_) fun inert => ?_
    · have brackets := congrArg (List.count bracket) same
      rw [equality.brackets _ bracket isBracket, equality.brackets _ bracket isBracket] at brackets
      have fewer := count_removingOccurrences_lt seen
      have trimmed := (trimmingCharacters_sublist isWhitespace
        (removingOccurrences (bracket :: more) subject)).count_le bracket
      omega
    · have unseen := inert.unseen
      rw [seen] at unseen
      cases unseen

theorem nudeSubject_of_single {subject mark : Text} (single : regexMatches fileMark subject = [mark]) :
    nudeSubject subject = trimmingCharacters isWhitespace (removingOccurrences mark subject) := by
  rw [nudeSubject, single]

theorem nudeSubject_of_length_ne {subject : Text} (notOne : (regexMatches fileMark subject).length ≠ 1) :
    nudeSubject subject = subject := by
  unfold nudeSubject
  split
  · rename_i mark single
    rw [single] at notOne
    exact absurd rfl notOne
  · rfl

theorem nudeSubject_eq_self_iff (noPart : regexMatches partMark subject = []) :
    equality.form (nudeSubject subject) = equality.form subject ↔
      ∀ mark, regexMatches squareMark subject = [mark] → Inert equality subject mark := by
  have all := fileMark_matches subject
  rw [noPart, List.nil_append] at all
  constructor
  · intro shown mark single
    rw [single] at all
    have isSingle := List.perm_singleton.mp all
    rw [nudeSubject_of_single isSingle] at shown
    exact (stripped_eq_iff (isSingle ▸ List.mem_singleton_self mark)).mp shown
  · intro style
    by_cases one : (regexMatches fileMark subject).length = 1
    · obtain ⟨mark, isSingle⟩ := List.length_eq_one_iff.mp one
      rw [isSingle] at all
      have inert := style mark (List.perm_singleton.mp all.symm)
      rw [nudeSubject_of_single isSingle]
      exact (stripped_eq_iff (isSingle ▸ List.mem_singleton_self mark)).mpr inert
    · rw [nudeSubject_of_length_ne one]

theorem nudeSubject_eq_key_iff {mark : Text} (single : regexMatches partMark subject = [mark]) :
    equality.form (nudeSubject subject) =
        equality.form (trimmingCharacters isWhitespace (removingOccurrences mark subject)) ↔
      regexMatches squareMark subject = [] ∨ Inert equality subject mark := by
  have all := fileMark_matches subject
  rw [single] at all
  have isMark : mark ∈ regexMatches fileMark subject := all.mem_iff.mpr (by simp)
  by_cases noSquare : regexMatches squareMark subject = []
  · rw [noSquare, List.append_nil] at all
    rw [nudeSubject_of_single (List.perm_singleton.mp all)]
    exact iff_of_true rfl (.inl noSquare)
  · have many : (regexMatches fileMark subject).length ≠ 1 := by
      have count := all.length_eq
      have positive := List.length_pos_iff.mpr noSquare
      rw [List.length_append, List.length_singleton] at count
      omega
    rw [nudeSubject_of_length_ne many, or_iff_right noSquare, eq_comm]
    exact stripped_eq_iff isMark

theorem nudeSubject_of_many (many : 1 < (regexMatches partMark subject).length) : nudeSubject subject = subject := by
  have count := (fileMark_matches subject).length_eq
  rw [List.length_append] at count
  exact nudeSubject_of_length_ne (by omega)

theorem titleAgrees_iff (equality : StringEquality) (subject : Text) :
    TitleAgrees equality subject ↔ OneStyle equality subject := by
  unfold TitleAgrees subjectMinusIndex
  cases round : regexMatches partMark subject with
  | nil =>
    refine (nudeSubject_eq_self_iff round).trans ⟨fun style => ⟨fun mark one => ?_, fun _ => style⟩, fun oneStyle => ?_⟩
    · rw [round] at one
      cases one
    · exact oneStyle.square round
  | cons mark more =>
    have someRound : regexMatches partMark subject ≠ [] := by
      rw [round]
      exact List.cons_ne_nil mark more
    cases more with
    | nil =>
      refine (nudeSubject_eq_key_iff round).trans ⟨fun style => ⟨fun other one => ?_, fun none => ?_⟩, fun oneStyle => ?_⟩
      · rw [round] at one
        cases one
        exact style
      · exact absurd none someRound
      · exact oneStyle.round mark round
    | cons second more =>
      have many : 1 < (regexMatches partMark subject).length := by
        rw [round, List.length_cons, List.length_cons]
        omega
      refine iff_of_true (by rw [nudeSubject_of_many many]) ⟨fun other one => ?_, fun none => absurd none someRound⟩
      rw [round] at one
      cases one

/-! ## The children of an entry -/

/-- All children of an entry have one title. -/
def SameTitles (table : ArticlesTableVM) : Prop :=
  ∀ entry ∈ table.articles, ∀ child ∈ table.children entry, ∀ other ∈ table.children entry,
    table.equality.form (nudeSubject (table.objects child).subject) =
      table.equality.form (nudeSubject (table.objects other).subject)

/-- The titles of all children agree with their keys, and with each other. -/
structure Titled (table : ArticlesTableVM) : Prop where
  agrees : ∀ entry ∈ table.articles, ∀ child ∈ table.children entry,
    TitleAgrees table.equality (table.objects child).subject
  same : SameTitles table

/-- What a subject is filed under: its key, or itself. -/
def postOf (equality : StringEquality) (subject : Text) : Text :=
  equality.form ((subjectMinusIndex subject).getD subject)

section Calls

variable (table : ArticlesTableVM) (article : ArticleVMRef)

/-- The call brings a subject into the entry: its article joins the entry, or the subject of one of
    the children is overwritten. -/
def Enters (entry : OutlineRef) : Prop :=
  entryOfPost table article = some entry ∨ ∃ renamed ∈ table.children entry, overwritten table article = some renamed

/-- The subject comes to be shown, in a new entry or in an old one. -/
def Shown : Prop :=
  (¬ Ignored table article ∧ entryOfPost table article = none) ∨ ∃ entry ∈ table.articles, Enters table article entry

/-- What the call must find. -/
structure KeepsTitles : Prop where
  /-- A subject that is shown has marks of one style. -/
  oneStyle : Shown table article → OneStyle table.equality (table.objects article).subject
  /-- It comes into entries of its own post only, unless its article is to be the only child. -/
  ownPost : ∀ entry ∈ table.articles, Enters table article entry →
    (∀ child ∈ table.children entry, overwritten table article = some child) ∨
      ∀ outline, table.outlines[entry]? = some outline →
        postOf table.equality (table.objects outline.article).subject =
          postOf table.equality (table.objects article).subject

end Calls

theorem title_eq_postOf (agrees : TitleAgrees equality subject) :
    equality.form (nudeSubject subject) = postOf equality subject := by
  unfold TitleAgrees at agrees
  unfold postOf
  cases isKey : subjectMinusIndex subject with
  | none =>
    rw [isKey] at agrees
    exact agrees
  | some key =>
    rw [isKey] at agrees
    exact agrees

variable {table : ArticlesTableVM} {article : ArticleVMRef}

/-! ## The article of an entry -/

/-- An entry was made for its article, which stays among its children. -/
def Owned (table : ArticlesTableVM) : Prop := ∀ outline ∈ table.outlines, outline.article ∈ outline.children

theorem Owned.newOutline (owned : Owned table) (article : ArticleVMRef) : Owned (table.newOutline article).2 := by
  intro outline inside
  rcases List.mem_append.mp inside with old | isNew
  · exact owned outline old
  · rw [List.mem_singleton.mp isNew]
    exact List.mem_singleton_self article

theorem Owned.appendChild (owned : Owned table) (multiArticle : OutlineRef) (article : ArticleVMRef) :
    Owned (table.appendChild multiArticle article) := by
  intro outline inside
  obtain ⟨place, isOutline⟩ := List.mem_iff_getElem?.mp inside
  rw [ArticlesTableVM.appendChild, List.getElem?_modify] at isOutline
  cases before : table.outlines[place]? with
  | none =>
    rw [before] at isOutline
    cases isOutline
  | some former =>
    rw [before] at isOutline
    have own := owned former (List.mem_of_getElem? before)
    by_cases here : multiArticle = place
    · simp only [here, if_true, Option.map_eq_map, Option.map_some, Option.some.injEq] at isOutline
      rw [← isOutline, List.mem_insertionSort]
      exact List.mem_append_left _ own
    · simp only [here, if_false, Option.map_eq_map, Option.map_some, Option.some.injEq] at isOutline
      exact isOutline ▸ own

theorem Owned.addPart (owned : Owned table) (key : Text) (article : ArticleVMRef) :
    Owned (table.addPart key article) := by
  unfold ArticlesTableVM.addPart
  cases table.articleCache.lookup (table.equality.form key) with
  | none => exact owned.newOutline article
  | some multiArticle => exact owned.appendChild multiArticle article

theorem Owned.insertArticle (owned : Owned table) (article : ArticleVMRef) : Owned (table.insertArticle article) := by
  have displayed : Owned (table.display (table.objects article).id) := owned
  rw [ArticlesTableVM.insertArticle]
  dsimp only
  split
  · exact owned.newOutline article
  · cases subjectMinusIndex (table.objects article).subject with
    | none => exact owned.newOutline article
    | some key => exact displayed.addPart key article

theorem Owned.touched (owned : Owned table) (article : ArticleVMRef) : Owned (ShownArticles.touched article table) := by
  unfold ShownArticles.touched updateArticle
  cases table.articleCache.lookup (table.idOf article) with
  | none => exact owned
  | some cArticle =>
    dsimp only
    split <;> exact owned

theorem Owned.addArticle (owned : Owned table) (article : ArticleVMRef) : Owned (table.addArticle article) := by
  obtain ⟨early, late⟩ := addArticle_eq article table
  by_cases both : Cached table (table.idOf article) ∧ Displayed table (table.idOf article)
  · rw [early both]
    exact owned.touched article
  · rw [late both]
    exact (owned.touched article).insertArticle article

theorem Owned.mem_children (owned : Owned table) {entry : OutlineRef} {outline : ArticleOutlineVM}
    (isOutline : table.outlines[entry]? = some outline) : outline.article ∈ table.children entry := by
  rw [children, isOutline]
  exact owned outline (List.mem_of_getElem? isOutline)

/-! ## What a call does to the children -/

theorem addArticle_equality (table : ArticlesTableVM) (article : ArticleVMRef) :
    (table.addArticle article).equality = table.equality := by
  have alike := touched_alike article table
  have inserts : ∀ middle : ArticlesTableVM, (middle.insertArticle article).equality = middle.equality := by
    intro middle
    unfold insertArticle addPart
    dsimp only
    split
    · rfl
    · split
      · split <;> rfl
      · rfl
  obtain ⟨early, late⟩ := addArticle_eq article table
  by_cases both : Cached table (table.idOf article) ∧ Displayed table (table.idOf article)
  · rw [early both, alike.equality]
  · rw [late both, inserts, alike.equality]

/-- The children of an old entry: those of before, and the article if it joins them. -/
theorem mem_children_addArticle (wellFormed : WellFormed table) (article : ArticleVMRef) {entry : OutlineRef}
    (visible : entry ∈ table.articles) (child : ArticleVMRef) :
    child ∈ (table.addArticle article).children entry ↔
      child ∈ table.children entry ∨ (entryOfPost table article = some entry ∧ child = article) := by
  have changed := addArticle_changed table article
  have exist := wellFormed.valid.exist entry visible
  rw [children_eq_bucket, children_eq_bucket]
  cases isJoined : entryOfPost table article with
  | none =>
    have same : (board (table.addArticle article)).bucket entry = (board table).bucket entry := by
      by_cases ignored : Ignored table article
      · obtain old | hidden := changed.ignored ignored
        · rw [old]
        · rw [hidden, Board.bucket_addHidden article exist]
      · rw [changed.alone ignored isJoined]
        exact Board.bucket_addHidden article exist
    rw [same]
    simp
  | some joinedEntry =>
    rw [changed.joins joinedEntry isJoined]
    by_cases here : entry = joinedEntry
    · subst here
      rw [Board.bucket_put _ _ exist, List.mem_insertionSort, List.mem_append, List.mem_singleton]
      simp
    · rw [Board.bucket_put_of_ne _ _ here]
      simp [Ne.symm here]

theorem mem_articles_alone (named : ¬ Ignored table article) (isAlone : entryOfPost table article = none) :
    (∀ entry ∈ table.articles, entry ∈ (table.addArticle article).articles) ∧
      (∃ entry ∈ (table.addArticle article).articles, (table.addArticle article).children entry = [article]) ∧
      ∀ entry ∈ (table.addArticle article).articles,
        entry ∈ table.articles ∨ (table.addArticle article).children entry = [article] := by
  have added := (addArticle_changed table article).alone named isAlone
  have visible : (table.addArticle article).articles = table.articles ++ [(board table).buckets.length] :=
    congrArg Board.visible added
  have newEntry : (table.addArticle article).children (board table).buckets.length = [article] := by
    rw [children_eq_bucket, added]
    simp [Board.bucket, Board.addVisible, List.getD_eq_getElem?_getD]
  rw [visible]
  refine ⟨fun entry => List.mem_append_left _, ⟨_, List.mem_append_right _ List.mem_cons_self, newEntry⟩, ?_⟩
  intro entry inside
  cases List.mem_append.mp inside with
  | inl before => exact .inl before
  | inr isNew =>
    rw [List.mem_singleton.mp isNew]
    exact .inr newEntry

theorem mem_articles_addArticle (table : ArticlesTableVM) (article : ArticleVMRef) (entry : OutlineRef) :
    (entry ∈ table.articles → entry ∈ (table.addArticle article).articles) ∧
      (entry ∈ (table.addArticle article).articles → entry ∈ table.articles ∨
        (Shown table article ∧ (table.addArticle article).children entry = [article])) := by
  have changed := addArticle_changed table article
  by_cases ignored : Ignored table article
  · have visible : (table.addArticle article).articles = table.articles := by
      obtain old | hidden := changed.ignored ignored
      · exact congrArg Board.visible old
      · exact congrArg Board.visible hidden
    rw [visible]
    exact ⟨id, .inl⟩
  · cases isJoined : entryOfPost table article with
    | some joinedEntry =>
      have visible : (table.addArticle article).articles = table.articles :=
        congrArg Board.visible (changed.joins joinedEntry isJoined)
      rw [visible]
      exact ⟨id, .inl⟩
    | none =>
      obtain ⟨stay, -, isNew⟩ := mem_articles_alone ignored isJoined
      exact ⟨stay entry, fun inside => (isNew entry inside).imp id fun alone => ⟨.inl ⟨ignored, isJoined⟩, alone⟩⟩

theorem subjectDuring_article : subjectDuring table article article = (table.objects article).subject := by
  unfold subjectDuring
  split <;> rfl

theorem subjectDuring_of_kept {child : ArticleVMRef} (kept : overwritten table article ≠ some child) :
    subjectDuring table article child = (table.objects child).subject := if_neg kept

/-- The new subject is that of the article, or of the child that takes it over. -/
theorem exists_newest (wellFormed : WellFormed table) {entry : OutlineRef} (visible : entry ∈ table.articles)
    (enters : Enters table article entry) : ∃ newest ∈ (table.addArticle article).children entry,
      subjectDuring table article newest = (table.objects article).subject := by
  obtain joins | ⟨renamed, inside, isRenamed⟩ := enters
  · have joined := (mem_children_addArticle wellFormed article visible article).mpr (.inr ⟨joins, rfl⟩)
    exact ⟨article, joined, subjectDuring_article⟩
  · have stays := (mem_children_addArticle wellFormed article visible renamed).mpr (.inl inside)
    exact ⟨renamed, stays, if_pos isRenamed⟩

theorem exists_shown (wellFormed : WellFormed table) (shown : Shown table article) :
    ∃ entry ∈ (table.addArticle article).articles, ∃ newest ∈ (table.addArticle article).children entry,
      subjectDuring table article newest = (table.objects article).subject := by
  obtain ⟨named, isAlone⟩ | ⟨entry, visible, enters⟩ := shown
  · obtain ⟨-, ⟨entry, visible, alone⟩, -⟩ := mem_articles_alone named isAlone
    refine ⟨entry, visible, article, ?_, subjectDuring_article⟩
    rw [alone]
    exact List.mem_singleton_self article
  · exact ⟨entry, (mem_articles_addArticle table article entry).1 visible, exists_newest wellFormed visible enters⟩

/-! ## One call -/

/-- Before the call the children of an entry are all filed as its article is. -/
theorem Titled.postOf_eq (titled : Titled table) {entry : OutlineRef} (visible : entry ∈ table.articles)
    {child other : ArticleVMRef} (inside : child ∈ table.children entry) (otherInside : other ∈ table.children entry) :
    postOf table.equality (table.objects child).subject = postOf table.equality (table.objects other).subject := by
  rw [← title_eq_postOf (titled.agrees entry visible child inside),
    ← title_eq_postOf (titled.agrees entry visible other otherInside)]
  exact titled.same entry visible child inside other otherInside

theorem Titled.keepsTitles (owned : Owned table) (wellFormed : WellFormed table) (titled : Titled table)
    (later : Titled (table.addArticle article)) : KeepsTitles table article where
  oneStyle shown := by
    obtain ⟨entry, visible, newest, inside, isNewest⟩ := exists_shown wellFormed shown
    have agrees := later.agrees entry visible newest inside
    rw [(addArticle_changed table article).subjects, isNewest, addArticle_equality] at agrees
    exact (titleAgrees_iff _ _).mp agrees
  ownPost entry visible enters := by
    by_cases only : ∀ child ∈ table.children entry, overwritten table article = some child
    · exact .inl only
    · -- a child that keeps its subject stands beside the new one, and is filed as the entry's article is
      push Not at only
      obtain ⟨child, inside, kept⟩ := only
      refine .inr fun outline isOutline => ?_
      have visibleLater := (mem_articles_addArticle table article entry).1 visible
      have childLater := (mem_children_addArticle wellFormed article visible child).mpr (.inl inside)
      obtain ⟨newest, newestLater, isNewest⟩ := exists_newest wellFormed visible enters
      have posts := later.postOf_eq visibleLater childLater newestLater
      rw [(addArticle_changed table article).subjects, (addArticle_changed table article).subjects, isNewest,
        subjectDuring_of_kept kept, addArticle_equality] at posts
      rw [← posts]
      exact titled.postOf_eq visible (owned.mem_children isOutline) inside

/-- The subjects of an entry after the call, each with the title of the new subject. -/
theorem KeepsTitles.entered (keeps : KeepsTitles table article) (owned : Owned table) (wellFormed : WellFormed table)
    (titled : Titled table) {entry : OutlineRef} (visible : entry ∈ table.articles)
    (enters : Enters table article entry) {child : ArticleVMRef}
    (childLater : child ∈ (table.addArticle article).children entry) :
    TitleAgrees table.equality (subjectDuring table article child) ∧
      postOf table.equality (subjectDuring table article child) =
        postOf table.equality (table.objects article).subject := by
  have newAgrees : TitleAgrees table.equality (table.objects article).subject :=
    (titleAgrees_iff _ _).mpr (keeps.oneStyle (.inr ⟨entry, visible, enters⟩))
  by_cases renamed : overwritten table article = some child
  · rw [subjectDuring_self renamed]
    exact ⟨newAgrees, rfl⟩
  · obtain inside | ⟨-, rfl⟩ := (mem_children_addArticle wellFormed article visible child).mp childLater
    · rw [subjectDuring_of_kept renamed]
      refine ⟨titled.agrees entry visible child inside, ?_⟩
      have ownPost := (keeps.ownPost entry visible enters).resolve_left fun only => renamed (only child inside)
      have exist : entry < table.outlines.length := by
        have bound := wellFormed.valid.exist entry visible
        rwa [board, List.length_map] at bound
      have isOutline := List.getElem?_eq_getElem exist
      rw [← ownPost _ isOutline]
      exact titled.postOf_eq visible inside (owned.mem_children isOutline)
    · rw [subjectDuring_article]
      exact ⟨newAgrees, rfl⟩

/-- An entry that the new subject does not enter keeps its children, and they keep their subjects. -/
theorem unchanged_of_not_enters (wellFormed : WellFormed table) {entry : OutlineRef} (visible : entry ∈ table.articles)
    (stays : ¬ Enters table article entry) {child : ArticleVMRef}
    (childLater : child ∈ (table.addArticle article).children entry) :
    child ∈ table.children entry ∧ subjectDuring table article child = (table.objects child).subject := by
  obtain inEntry | ⟨joins, -⟩ := (mem_children_addArticle wellFormed article visible child).mp childLater
  · exact ⟨inEntry, subjectDuring_of_kept fun renamed => stays (.inr ⟨child, inEntry, renamed⟩)⟩
  · exact absurd (.inl joins) stays

/-- Titles that agree with one key agree with each other. -/
theorem titled_of_posts (posts : ∀ entry ∈ table.articles, ∃ post, ∀ child ∈ table.children entry,
    TitleAgrees table.equality (table.objects child).subject ∧
      postOf table.equality (table.objects child).subject = post) : Titled table where
  agrees entry visible child inside := by
    obtain ⟨post, isPost⟩ := posts entry visible
    exact (isPost child inside).1
  same entry visible child inside other otherInside := by
    obtain ⟨post, isPost⟩ := posts entry visible
    obtain ⟨agrees, childPost⟩ := isPost child inside
    obtain ⟨otherAgrees, otherPost⟩ := isPost other otherInside
    rw [title_eq_postOf agrees, title_eq_postOf otherAgrees, childPost, otherPost]

theorem KeepsTitles.titled (keeps : KeepsTitles table article) (owned : Owned table) (wellFormed : WellFormed table)
    (titled : Titled table) : Titled (table.addArticle article) := by
  apply titled_of_posts
  intro entry visibleLater
  rw [addArticle_equality]
  simp only [(addArticle_changed table article).subjects]
  obtain visible | ⟨shown, alone⟩ := (mem_articles_addArticle table article entry).2 visibleLater
  · by_cases enters : Enters table article entry
    · exact ⟨_, fun child childLater => keeps.entered owned wellFormed titled visible enters childLater⟩
    · -- every child has the key that any of them has
      cases isChildren : (table.addArticle article).children entry with
      | nil => exact ⟨[], fun child inside => absurd inside List.not_mem_nil⟩
      | cons first others =>
        have isFirst : first ∈ (table.addArticle article).children entry := isChildren ▸ List.mem_cons_self
        obtain ⟨firstInside, -⟩ := unchanged_of_not_enters wellFormed visible enters isFirst
        rw [← isChildren]
        refine ⟨postOf table.equality (table.objects first).subject, fun child childLater => ?_⟩
        obtain ⟨inside, same⟩ := unchanged_of_not_enters wellFormed visible enters childLater
        rw [same]
        exact ⟨titled.agrees entry visible child inside, titled.postOf_eq visible inside firstInside⟩
  · refine ⟨postOf table.equality (table.objects article).subject, fun child inside => ?_⟩
    rw [alone, List.mem_singleton] at inside
    rw [inside, subjectDuring_article]
    exact ⟨(titleAgrees_iff _ _).mpr (keeps.oneStyle shown), rfl⟩

/-! ## Every subject, every run -/

/-- The title is the grouping key exactly for subjects in one style; at every moment the titles of all
    children agree with their keys and those of an entry with each other, exactly if every call brings a
    subject in one style, and into entries of its own post only. -/
theorem titles_agree_iff (equality : StringEquality) (subject : Text) (objects : ArticleVMRef → ArticleVM)
    (calls : List ArticleVMRef) :
    (TitleAgrees equality subject ↔ OneStyle equality subject) ∧
      ((∀ front, front <+: calls → Titled ((new equality objects).addArticles front)) ↔
        ∀ front article, front ++ [article] <+: calls →
          KeepsTitles ((new equality objects).addArticles front) article) := by
  refine ⟨titleAgrees_iff equality subject, ?_⟩
  refine @Runs.foldl_prefixes_iff _ _ (fun table article => table.addArticle article)
    (fun table => Owned table ∧ WellFormed table) Titled KeepsTitles ?_ ?_ _ ?_ ?_ calls
  · rintro _ article ⟨owned, wellFormed⟩
    exact ⟨owned.addArticle article, wellFormed.addArticle article⟩
  · rintro _ article ⟨owned, wellFormed⟩ titled
    exact ⟨titled.keepsTitles owned wellFormed, fun keeps => keeps.titled owned wellFormed titled⟩
  · exact ⟨fun outline inside => absurd inside List.not_mem_nil, wellFormed_new equality objects⟩
  · exact titled_of_posts fun entry visible => absurd visible List.not_mem_nil

/-- Two parts whose subjects carry a file index too are filed under one key and shown in full. -/
theorem indexed_parts_have_other_titles :
    ¬ ((∀ subject, TitleAgrees scalarEquality subject) ∧
      ∀ objects calls, SameTitles ((new scalarEquality objects).addArticles calls)) ∧
    ¬ TitleAgrees scalarEquality "[1/9] a (2/2)".toList ∧
    ¬ SameTitles ((new scalarEquality indexedParts).addArticles [0, 1]) := by
  have disagrees : ¬ TitleAgrees scalarEquality "[1/9] a (2/2)".toList := by
    have title : nudeSubject "[1/9] a (2/2)".toList = "[1/9] a (2/2)".toList := by decide
    have key : subjectMinusIndex "[1/9] a (2/2)".toList = some "[1/9] a".toList := by decide
    rw [TitleAgrees, title, key]
    decide
  refine ⟨fun claim => disagrees (claim.1 _), disagrees, fun same => ?_⟩
  have titles := same 0 (by decide) 0 (by decide) 1 (by decide)
  revert titles
  decide

end EasyNews.Verified.ShownTitles
