import Mathlib.Data.Bool.AllAny
import EasyNews.ArticleViews

/-! # Which articles the views take for pictures

The walk traps on the head of a picture with fewer than three words, and on nothing else. Where it does not
trap, it decodes exactly the uuencoded picture that is there if the head is spelled as it joins it again.
-/

namespace EasyNews.Verified.PictureScans

/-! ## Articles of any shape -/

/-- The view shows every article in which each head of a picture has a third word, and no other. -/
theorem onNewArticle_isSome_iff (view : ArticleView) (machine : Machine) (article : Text) :
    (view.onNewArticle machine article).isSome = true ↔ ∀ line ∈ split article, view.Named line := by
  rw [view.onNewArticle_eq]
  split
  · rename_i named
    exact ⟨fun _ => named, fun _ => rfl⟩
  · rename_i unnamed
    exact ⟨nofun, fun named => absurd named unnamed⟩

def headWithoutMode : Text := "begin a.jpg".toList

theorem headWithoutMode_traps :
    (¬ ∀ machine article, (meganTableView.onNewArticle machine article).isSome = true) ∧
      ¬ ∀ machine article, (articlesTableView.onNewArticle machine article).isSome = true := by
  constructor
  · intro shown
    exact absurd (shown decodingMachine headWithoutMode) (by decide)
  · intro shown
    exact absurd (shown decodingMachine headWithoutMode) (by decide)

/-! ## Announced pictures -/

/-- What a head may have between `begin` and the name: a word at least, with the spaces around it. -/
structure ModeSyntax where
  isMode : Text → Prop
  word : ∀ mode, isMode mode → mode ≠ [] ∧ ' ' ∉ mode
  apart : ∀ mode, isMode mode → joined mode = false ∧ attached mode = false

def octal : ModeSyntax where
  isMode mode := mode ≠ [] ∧ ∀ digit ∈ mode, '0' ≤ digit ∧ digit ≤ '7'
  word mode isMode := ⟨isMode.1, fun space => absurd (isMode.2 ' ' space).1 (by decide)⟩
  apart mode isMode := by
    have low : ∀ digit ∈ mode, digit.toNat < 0x300 := fun digit inside =>
      Nat.lt_of_le_of_lt (isMode.2 digit inside).2 (by decide)
    exact ⟨joined_of_low low, attached_of_low low⟩

/-- `begin <mode> <name>`. -/
def headOf (mode name : Text) : Text := "begin ".toList ++ (mode ++ ' ' :: name)

variable (modes : ModeSyntax)

/-- The article has a picture of this name, from its head to the end. -/
def Announces (article name : Text) : Prop :=
  name ≠ [] ∧ (∃ ending ∈ meganTableView.extensions, ending <:+ name) ∧
    ∃ front mode back, modes.isMode mode ∧ split article = front ++ headOf mode name :: back ∧ "end".toList ∈ back

/-- The view decodes the pictures that are announced, and opens them under the names they have there. -/
structure Exact (machine : Machine) (article : Text) : Prop where
  launches : ∀ name, meganTableView.Does machine article (.uudecode name article) ↔ Announces modes article name
  opens : ∀ name, Announces modes article name → ∀ path,
    meganTableView.Does machine article (.launchOpen path) ↔
      meganTableView.Decodes machine name article ∧ path = meganTableView.tmpPath ++ "/".toList ++ name

/-- A head that is read as it is written, with these lines behind it. -/
structure Proper (line : Text) (back : List Text) : Prop where
  singleSpaces : List.intercalate " ".toList (splitWords line) = line
  mode : ∃ mode, (splitWords line)[1]? = some mode ∧ modes.isMode mode
  ending : ∃ ending ∈ meganTableView.extensions, ending <:+ line
  ended : "end".toList ∈ back

/-- The head of a picture with a name, in an article in which the walk finds an end. -/
structure Head (article line : Text) : Prop where
  picture : meganTableView.isPicture line = true
  enough : 3 ≤ (splitWords line).length
  ends : (split article).any isEnd = true

/-- Wherever the walk finds a name and an end, the head is proper, and no name joins the space in front
    of it. -/
structure ProperHeads (article : Text) : Prop where
  heads : ∀ front line back, split article = front ++ line :: back → Head article line → Proper modes line back
  names : ∀ name, Announces modes article name → joined name = false

/-! ## Heads and their words -/

theorem extension_symbols {ending : Text} (isExtension : ending ∈ meganTableView.extensions) :
    '.' ∈ ending ∧ ' ' ∉ ending := by
  revert ending
  decide

theorem joined_mode {mode : Text} (isMode : modes.isMode mode) (name : Text) : joined (mode ++ ' ' :: name) = false := by
  rw [joined_append_space]
  exact (modes.apart mode isMode).1

theorem splitWords_headOf {mode name : Text} (isMode : modes.isMode mode) (unjoined : joined name = false) :
    splitWords (headOf mode name) = "begin".toList :: mode :: splitWords name := by
  obtain ⟨nonempty, noSpace⟩ := modes.word mode isMode
  have cut : headOf mode name = "begin".toList ++ ' ' :: (mode ++ ' ' :: name) := rfl
  rw [cut, splitWords_append (by decide) (joined_mode modes isMode name),
    splitWords_append (modes.apart mode isMode).2 unjoined, splitWords_word (by decide) (by decide),
    splitWords_word nonempty noSpace]
  rfl

theorem second_headOf {mode name : Text} (isMode : modes.isMode mode) (unjoined : joined name = false) :
    (splitWords (headOf mode name))[1]? = some mode := by
  rw [splitWords_headOf modes isMode unjoined]
  rfl

theorem joined_nameOf {line : Text} (begins : isBegin line = true) : joined (nameOf line) = false := by
  have unjoined : joined line = false := by
    obtain ⟨rest, rfl⟩ := isPrefix_of_starts begins
    exact @joins_ascii 'b' (by decide)
  have behind := joined_splitWords unjoined
  rw [nameOf]
  cases words : (splitWords line).drop 2 with
  | nil => rfl
  | cons name more =>
    have isName := behind name (List.mem_of_mem_drop (words ▸ List.mem_cons_self))
    have nonempty : name ≠ [] := by
      have inside : name ∈ splitWords line := List.mem_of_mem_drop (words ▸ List.mem_cons_self)
      simpa using (List.mem_filter.mp inside).2
    obtain ⟨first, others, rfl⟩ := List.exists_cons_of_ne_nil nonempty
    cases more with
    | nil => exact isName
    | cons next more => exact isName

theorem spaced_suffix_headOf (mode name : Text) : ' ' :: name <:+ headOf mode name :=
  (List.suffix_append mode (' ' :: name)).trans (List.suffix_append "begin ".toList (mode ++ ' ' :: name))

theorem suffix_headOf (mode name : Text) : name <:+ headOf mode name :=
  (List.suffix_cons ' ' name).trans (spaced_suffix_headOf mode name)

/-- With a third word, joining the words of a head gives back `begin`, the mode and the name. -/
theorem intercalate_splitWords {line mode : Text} (begins : isBegin line = true)
    (second : (splitWords line)[1]? = some mode) (enough : 3 ≤ (splitWords line).length) :
    List.intercalate " ".toList (splitWords line) = headOf mode (nameOf line) := by
  obtain ⟨rest, rfl, unjoined⟩ := starts_iff.mp begins
  have words : splitWords ("begin ".toList ++ rest) = "begin".toList :: splitWords rest := by
    have cut : "begin ".toList ++ rest = "begin".toList ++ ' ' :: rest := rfl
    rw [cut, splitWords_append (by decide) unjoined, splitWords_word (by decide) (by decide)]
    rfl
  rw [words] at second enough
  rw [nameOf, words]
  obtain ⟨first, other, name, more, pieces⟩ := exists_cons_cons_cons enough
  obtain ⟨rfl, tail⟩ := List.cons.inj pieces
  rw [tail] at second ⊢
  cases second
  rfl

theorem suffix_name {ending mode name : Text} (noSpace : ' ' ∉ ending) (suffix : ending <:+ headOf mode name) :
    ending <:+ name := by
  cases List.suffix_or_suffix_of_suffix suffix (spaced_suffix_headOf mode name) with
  | inr longer => exact absurd (longer.subset List.mem_cons_self) noSpace
  | inl shorter =>
    cases List.suffix_cons_iff.mp shorter with
    | inl whole => exact absurd (whole ▸ List.mem_cons_self) noSpace
    | inr inside => exact inside

theorem isBegin_headOf {mode : Text} (isMode : modes.isMode mode) (name : Text) : isBegin (headOf mode name) = true :=
  starts_iff.mpr ⟨_, rfl, joined_mode modes isMode name⟩

theorem isPicture_headOf {ending mode name : Text} (isMode : modes.isMode mode)
    (isExtension : ending ∈ meganTableView.extensions) (suffix : ending <:+ name) :
    meganTableView.isPicture (headOf mode name) = true := by
  have mentions : meganTableView.mentionsImage (headOf mode name) = true := by
    have atEnd := suffix.trans (suffix_headOf mode name)
    exact List.any_eq_true.mpr ⟨ending, isExtension, contains_of_suffix atEnd⟩
  rw [ArticleView.isPicture, isBegin_headOf modes isMode, mentions]
  rfl

theorem Announces.head {modes : ModeSyntax} {article name : Text} (announced : Announces modes article name)
    (unjoined : joined name = false) :
    ∃ front mode back, modes.isMode mode ∧ split article = front ++ headOf mode name :: back ∧
      Head article (headOf mode name) := by
  obtain ⟨-, ⟨ending, isExtension, suffix⟩, front, mode, back, isMode, cut, ended⟩ := announced
  obtain ⟨dot, -⟩ := extension_symbols isExtension
  have words := List.length_pos_of_ne_nil (splitWords_ne_nil (suffix.subset dot) (by decide))
  have ends : (split article).any isEnd = true := by
    rw [cut]
    exact List.any_eq_true.mpr ⟨_, List.mem_append_right front (List.mem_cons_of_mem _ ended), by decide⟩
  refine ⟨front, mode, back, isMode, cut, isPicture_headOf modes isMode isExtension suffix, ?_, ends⟩
  rw [splitWords_headOf modes isMode unjoined, List.length_cons, List.length_cons]
  omega

theorem Announces.isRead {modes : ModeSyntax} {article name : Text} (announced : Announces modes article name)
    (proper : ProperHeads modes article) :
    ∃ line, (line ∈ split article ∧ Head article line) ∧ name = nameOf line := by
  have unjoined := proper.names name announced
  obtain ⟨front, mode, back, isMode, cut, head⟩ := announced.head unjoined
  have inside : headOf mode name ∈ split article := cut ▸ List.mem_append_right front List.mem_cons_self
  refine ⟨headOf mode name, ⟨inside, head⟩, ?_⟩
  obtain ⟨singleSpaces, -, -, -⟩ := proper.heads front _ back cut head
  have same := singleSpaces.symm.trans
    (intercalate_splitWords (isBegin_headOf modes isMode name) (second_headOf modes isMode unjoined) head.enough)
  exact List.cons_inj_right ' ' |>.mp (List.append_cancel_left (List.append_cancel_left same))

/-! ## Articles with one head at most -/

theorem place_unique {α : Type} {holds : α → Bool} {list : List α} (single : (list.filter holds).length ≤ 1)
    {front otherFront back otherBack : List α} {element other : α} (cut : list = front ++ element :: back)
    (otherCut : list = otherFront ++ other :: otherBack) (isElement : holds element = true) (isOther : holds other = true) :
    front = otherFront ∧ element = other ∧ back = otherBack := by
  have lengths := single
  rw [cut, List.filter_append, List.filter_cons_of_pos isElement, List.length_append, List.length_cons] at lengths
  have emptyFront : front.filter holds = [] := List.eq_nil_of_length_eq_zero (by omega)
  have emptyBack : back.filter holds = [] := List.eq_nil_of_length_eq_zero (by omega)
  rw [List.filter_eq_nil_iff] at emptyFront emptyBack
  exact (List.append_cons_inj_of_notMem (fun member => emptyFront other member isOther)
    (fun member => emptyBack other member isOther)).mp (cut.symm.trans otherCut)

section Single

variable {modes} {article : Text} (single : ((split article).filter isBegin).length ≤ 1)
include single

theorem head_unique {front otherFront back otherBack : List Text} {line other : Text}
    (cut : split article = front ++ line :: back) (otherCut : split article = otherFront ++ other :: otherBack)
    (picture : meganTableView.isPicture line = true) (otherPicture : meganTableView.isPicture other = true) :
    front = otherFront ∧ line = other ∧ back = otherBack :=
  place_unique single cut otherCut (Bool.and_eq_true_iff.mp picture).1 (Bool.and_eq_true_iff.mp otherPicture).1

/-- The head the walk ends with. -/
theorem walk_iff (line : Text) :
    ((∀ other ∈ split article, meganTableView.Named other) ∧ line ∈ meganTableView.pictureOf (split article)) ↔
      line ∈ split article ∧ Head article line := by
  constructor
  · rintro ⟨named, isLast⟩
    obtain ⟨inside, picture, ends⟩ := meganTableView.mem_of_pictureOf isLast
    exact ⟨inside, picture, named line inside picture, ends⟩
  · rintro ⟨inside, picture, enough, ends⟩
    have only : ∀ other ∈ split article, meganTableView.isPicture other = true → other = line := by
      intro other otherInside otherPicture
      obtain ⟨front, back, cut⟩ := List.append_of_mem inside
      obtain ⟨otherFront, otherBack, otherCut⟩ := List.append_of_mem otherInside
      exact (head_unique single otherCut cut otherPicture picture).2.1
    refine ⟨fun other otherInside otherPicture => only other otherInside otherPicture ▸ enough, ?_⟩
    rw [ArticleView.pictureOf, if_pos ends, Option.mem_def]
    cases last : ((split article).filter meganTableView.isPicture).getLast? with
    | none =>
      rw [List.getLast?_eq_none_iff, List.filter_eq_nil_iff] at last
      exact absurd picture (last line inside)
    | some other =>
      obtain ⟨otherInside, otherPicture⟩ := List.mem_filter.mp (List.mem_of_getLast? last)
      rw [only other otherInside otherPicture]

theorem announces_nameOf_iff {front back : List Text} {line : Text} (cut : split article = front ++ line :: back)
    (head : Head article line) : Announces modes article (nameOf line) ↔ Proper modes line back := by
  obtain ⟨picture, enough, -⟩ := head
  have begins := (Bool.and_eq_true_iff.mp picture).1
  constructor
  · rintro ⟨-, ⟨ending, isExtension, suffix⟩, otherFront, mode, otherBack, isMode, otherCut, ended⟩
    obtain ⟨-, isHead, rfl⟩ := head_unique single cut otherCut picture (isPicture_headOf modes isMode isExtension suffix)
    have second : (splitWords line)[1]? = some mode := by
      rw [isHead]
      exact second_headOf modes isMode (joined_nameOf begins)
    have atEnd : ending <:+ line := by
      rw [isHead]
      exact suffix.trans (suffix_headOf mode (nameOf line))
    exact ⟨(intercalate_splitWords begins second enough).trans isHead.symm, ⟨mode, second, isMode⟩,
      ⟨ending, isExtension, atEnd⟩, ended⟩
  · rintro ⟨singleSpaces, ⟨mode, second, isMode⟩, ⟨ending, isExtension, suffix⟩, ended⟩
    have isHead : line = headOf mode (nameOf line) := singleSpaces.symm.trans (intercalate_splitWords begins second enough)
    obtain ⟨dot, noSpace⟩ := extension_symbols isExtension
    have atEnd : ending <:+ nameOf line := suffix_name noSpace (isHead ▸ suffix)
    exact ⟨List.ne_nil_of_mem (atEnd.subset dot), ⟨ending, isExtension, atEnd⟩, front, mode, back, isMode,
      isHead ▸ cut, ended⟩

theorem does_uudecode_iff (machine : Machine) (name : Text) :
    meganTableView.Does machine article (.uudecode name article) ↔
      ∃ line, (line ∈ split article ∧ Head article line) ∧ name = nameOf line := by
  simp only [ArticleView.does_uudecode_iff, ← walk_iff single, ← exists_and_left, and_assoc]

theorem does_launchOpen_iff (machine : Machine) (path : Text) :
    meganTableView.Does machine article (.launchOpen path) ↔
      ∃ line, (line ∈ split article ∧ Head article line) ∧ meganTableView.Decodes machine (nameOf line) article ∧
        path = meganTableView.tmpPath ++ "/".toList ++ nameOf line := by
  simp only [ArticleView.does_launchOpen_iff, ← walk_iff single, ← exists_and_left, and_assoc]
  rfl

end Single

/-- With one head at most, the recognition is exact if and only if the head is proper. -/
theorem exact_iff_properHeads (machine : Machine) (article : Text)
    (single : ((split article).filter isBegin).length ≤ 1) :
    Exact modes machine article ↔ ProperHeads modes article := by
  constructor
  · intro exact
    constructor
    · intro front line back cut head
      have inside : line ∈ split article := cut ▸ List.mem_append_right front List.mem_cons_self
      have launched := (does_uudecode_iff single machine (nameOf line)).mpr ⟨line, ⟨inside, head⟩, rfl⟩
      exact (announces_nameOf_iff single cut head).mp ((exact.launches _).mp launched)
    · -- an announced name is decoded, so it is one the walk has read
      intro name announced
      obtain ⟨line, ⟨-, head⟩, rfl⟩ := (does_uudecode_iff single machine name).mp ((exact.launches name).mpr announced)
      exact joined_nameOf (Bool.and_eq_true_iff.mp head.picture).1
  · intro proper
    constructor
    · intro name
      rw [does_uudecode_iff single]
      constructor
      · rintro ⟨line, ⟨inside, head⟩, rfl⟩
        obtain ⟨front, back, cut⟩ := List.append_of_mem inside
        exact (announces_nameOf_iff single cut head).mpr (proper.heads front line back cut head)
      · intro announced
        exact announced.isRead proper
    · intro name announced path
      obtain ⟨line, walked, rfl⟩ := announced.isRead proper
      rw [does_launchOpen_iff single]
      constructor
      · rintro ⟨other, otherWalked, opened⟩
        -- the walk ends with one head only
        have isLine := ((walk_iff single line).mpr walked).2
        have isOther := ((walk_iff single other).mpr otherWalked).2
        exact Option.mem_unique isOther isLine ▸ opened
      · intro opened
        exact ⟨line, walked, opened⟩

def pictureIn (head : String) : Text := crlf.render [head.toList, "end".toList]

theorem properHeads_picture : ProperHeads octal (pictureIn "begin 644 a b.jpg") := by
  have lines : split (pictureIn "begin 644 a b.jpg") = ["begin 644 a b.jpg".toList, "end".toList] := by decide
  constructor
  · intro front line back cut head
    rw [lines] at cut
    cases front with
    | nil =>
      cases cut
      exact ⟨by decide, ⟨"644".toList, by decide, by decide, List.all_iff_forall_prop.mp (by decide)⟩,
        ⟨".jpg".toList, by decide, by decide⟩, List.mem_cons_self⟩
    | cons first front =>
      have inside : line ∈ ["end".toList] := by
        rw [(List.cons.inj cut).2]
        exact List.mem_append_right front List.mem_cons_self
      rw [List.mem_singleton.mp inside] at head
      exact absurd head.picture (by decide)
  · rintro name ⟨-, -, front, mode, back, -, cut, -⟩
    have ascii : ∀ line ∈ split (pictureIn "begin 644 a b.jpg"), (line.all fun char => char.toNat < 0x300) = true := by
      rw [lines]
      decide
    have isHead : headOf mode name ∈ split (pictureIn "begin 644 a b.jpg") :=
      cut ▸ List.mem_append_right front List.mem_cons_self
    exact joined_of_low fun char member =>
      List.all_iff_forall_prop.mp (ascii _ isHead) char ((suffix_headOf mode name).subset member)

theorem exact_picture : Exact octal decodingMachine (pictureIn "begin 644 a b.jpg") :=
  (exact_iff_properHeads octal decodingMachine (pictureIn "begin 644 a b.jpg") (by decide)).mpr properHeads_picture

/-- Two spaces in a name become one. -/
theorem doubled_space_not_exact :
    ¬ ∀ machine article, ((split article).filter isBegin).length ≤ 1 → Exact octal machine article := by
  intro exact
  have announced : Announces octal (pictureIn "begin 644 a  b.jpg") "a  b.jpg".toList :=
    ⟨by decide, ⟨".jpg".toList, by decide, by decide⟩, [], "644".toList, ["end".toList],
      ⟨by decide, List.all_iff_forall_prop.mp (by decide)⟩, by decide, List.mem_cons_self⟩
  obtain ⟨effects, isEffects, launched⟩ :=
    ((exact decodingMachine (pictureIn "begin 644 a  b.jpg") (by decide)).launches "a  b.jpg".toList).mpr announced
  have run : ∀ effects ∈ meganTableView.onNewArticle decodingMachine (pictureIn "begin 644 a  b.jpg"),
      ViewEffect.uudecode "a  b.jpg".toList (pictureIn "begin 644 a  b.jpg") ∉ effects := by decide
  exact run effects isEffects launched

end EasyNews.Verified.PictureScans
