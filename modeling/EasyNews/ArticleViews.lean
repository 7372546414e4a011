import EasyNews.Foundation

/-! # The article views and uuencoded pictures

`MeganTableView` and `ArticlesTableView` share `onNewArticle`, with other values: it walks the lines of
an article for a uuencoded picture, has it decoded and opens it. `Option.none` is a trap of Swift: an
index or a range that is out of bounds.

* `scanLine`, `scan` — the walk; `scan_eq` says what it finds.
* `onNewArticle` — the processes it launches and what it shows.
-/

namespace EasyNews

/-- What a view does for an article, outside itself and on the screen. -/
inductive ViewEffect where
  | uudecode (filename encodedFile : Text)
  | fileExists (path : Text)
  | launchOpen (argument : Text)
  | showArticle (article : Text)
deriving DecidableEq, Repr

/-- What `articleView` holds behind an effect: before an article is appended its string is set to `""`. -/
def ViewEffect.draw (string : Text) : ViewEffect → Text
  | .showArticle article => [] ++ article
  | _ => string

/-- The machine: how `/usr/bin/uudecode` ends, and which files there are afterwards. -/
structure Machine where
  terminationStatus : Text → Int
  fileExists : Text → Bool

def decodingMachine : Machine where
  terminationStatus _ := 0
  fileExists _ := true

/-- The values in which the two views differ. -/
structure ArticleView where
  extensions : List Text
  tmpPath : Text
  /-- Where `uudecode` looks for the decoded file. -/
  decodedPath : Text
  /-- What `open(fileName:)` makes of the file name. -/
  argument : Text → Text

def meganTableView : ArticleView where
  extensions := [".jpg", ".JPG", ".gif", ".GIF"].map String.toList
  tmpPath := "/Users/mbergamo/tmp".toList
  decodedPath := "/Users/mbergamo/tmp/".toList
  argument fileName := fileName

def articlesTableView : ArticleView where
  extensions := [".jpg", ".gif"].map String.toList
  tmpPath := "/Users/mbergamo/Data/Projects/me/current/EasyNews/tools/yenc-master".toList
  decodedPath := "/Users/mbergamo/Data/Projects/me/current/EasyNews/tools/yenc-master/".toList
  argument fileName :=
    if contains fileName " ".toList then "\"".toList ++ fileName ++ "\"".toList else fileName

/-! ## Walking the lines -/

/-- The variables of the walk. -/
structure Scan where
  beginFound : Bool := false
  endFound : Bool := false
  isImage : Bool := false
  filename : Text := []
deriving DecidableEq, Repr

/-- `line.starts(with: "begin ")`. -/
def isBegin (line : Text) : Bool := starts line "begin ".toList

/-- `line.starts(with: "end")`. -/
def isEnd (line : Text) : Bool := starts line "end".toList

/-- `filename.append(" \(part)")`. -/
def appendPart (filename part : Text) : Text := filename ++ (" ".toList ++ part)

/-- The file name the walk reads off the head of a picture. -/
def nameOf (line : Text) : Text := List.intercalate " ".toList ((splitWords line).drop 2)

theorem exists_cons_cons_cons {α : Type} {list : List α} (enough : 3 ≤ list.length) :
    ∃ first second third rest, list = first :: second :: third :: rest := by
  obtain ⟨first, tail, rfl⟩ := List.exists_cons_of_length_pos (by omega : 0 < list.length)
  rw [List.length_cons] at enough
  obtain ⟨second, tail, rfl⟩ := List.exists_cons_of_length_pos (by omega : 0 < tail.length)
  rw [List.length_cons] at enough
  obtain ⟨third, rest, rfl⟩ := List.exists_cons_of_length_pos (by omega : 0 < tail.length)
  exact ⟨first, second, third, rest, rfl⟩

theorem foldl_appendPart (name : Text) (parts : List Text) :
    parts.foldl appendPart name = List.intercalate " ".toList (name :: parts) := by
  induction parts generalizing name with
  | nil => simp
  | cons part parts inductionHypothesis =>
    rw [List.foldl_cons, inductionHypothesis]
    cases parts with
    | nil => simp [appendPart]
    | cons next parts => simp [appendPart]

namespace ArticleView

variable (view : ArticleView)

/-- `line.contains(".jpg") || …`. -/
def mentionsImage (line : Text) : Bool := view.extensions.any fun ending => contains line ending

/-- The body of `lines.forEach`. -/
def scanLine (scan : Scan) (line : Text) : Option Scan := do
  let scan ←
    if isBegin line then
      let scan := { scan with beginFound := true }
      if view.mentionsImage line then do
        let parts := splitWords line
        let filename ← parts[2]?
        -- the range `3..<parts.count`
        if 3 ≤ parts.length then
          some { scan with
            isImage := true
            filename := (parts.drop 3).foldl appendPart filename }
        else none
      else some scan
    else some scan
  return if isEnd line then { scan with endFound := true } else scan

def scan (article : Text) : Option Scan := (split article).foldlM view.scanLine {}

/-! ## `onNewArticle` -/

/-- `uudecode(args:filename:encodedFile:)`: the status it returns. -/
def uudecode (machine : Machine) (filename encodedFile : Text) : Int × List ViewEffect :=
  let status := machine.terminationStatus encodedFile
  if status ≠ 0 then
    let path := view.decodedPath ++ filename
    (if machine.fileExists path then 0 else status, [.uudecode filename encodedFile, .fileExists path])
  else (status, [.uudecode filename encodedFile])

/-- `open(fileName:)`. -/
def openFile (fileName : Text) : ViewEffect := .launchOpen (view.argument fileName)

/-- The branch of `onNewArticle` for a picture. -/
def decodeAndOpen (machine : Machine) (filename article : Text) : List ViewEffect :=
  let (status, effects) := view.uudecode machine filename article
  if status = 0 then effects ++ [view.openFile (view.tmpPath ++ "/".toList ++ filename)] else effects

/-- `onNewArticle(article:)`. -/
def onNewArticle (machine : Machine) (article : Text) : Option (List ViewEffect) := do
  let scan ← view.scan article
  let launched :=
    if scan.beginFound && scan.endFound then
      if scan.isImage then view.decodeAndOpen machine scan.filename article else []
    else []
  return launched ++ [.showArticle article]

theorem draw_onNewArticle {machine : Machine} {article : Text} {effects : List ViewEffect}
    (shown : view.onNewArticle machine article = some effects) (string : Text) :
    effects.foldl ViewEffect.draw string = article := by
  obtain ⟨scan, -, isEffects⟩ := Option.bind_eq_some_iff.mp shown
  obtain rfl := Option.some.inj isEffects
  rw [List.foldl_append]
  rfl

theorem piped_onNewArticle {machine : Machine} {article : Text} {effects : List ViewEffect}
    (shown : view.onNewArticle machine article = some effects) {filename encodedFile : Text}
    (piped : .uudecode filename encodedFile ∈ effects) : encodedFile = article := by
  obtain ⟨scan, -, isEffects⟩ := Option.bind_eq_some_iff.mp shown
  obtain rfl := Option.some.inj isEffects
  have launched : ViewEffect.uudecode filename encodedFile ∈ view.decodeAndOpen machine scan.filename article := by
    rcases List.mem_append.mp piped with launches | last
    · split at launches
      · split at launches
        · exact launches
        · cases launches
      · cases launches
    · cases List.mem_singleton.mp last
  unfold decodeAndOpen uudecode at launched
  dsimp only at launched
  split at launched <;> split at launched <;> simp [openFile] at launched <;> exact launched.2

/-! ## What the walk finds -/

/-- A line that the walk takes for the head of a picture. -/
def isPicture (line : Text) : Bool := isBegin line && view.mentionsImage line

def found (scan : Scan) (lines : List Text) : Scan where
  beginFound := scan.beginFound || lines.any isBegin
  endFound := scan.endFound || lines.any isEnd
  isImage := scan.isImage || lines.any view.isPicture
  filename := ((lines.filter view.isPicture).getLast?.map nameOf).getD scan.filename

/-- The head of a picture has a third piece, where the walk looks for the name. -/
def Named (line : Text) : Prop := view.isPicture line = true → 3 ≤ (splitWords line).length

instance : DecidablePred view.Named := fun line =>
  inferInstanceAs (Decidable (view.isPicture line = true → 3 ≤ (splitWords line).length))

theorem scanLine_of_named (scan : Scan) {line : Text} (named : view.Named line) :
    view.scanLine scan line = some (view.found scan [line]) := by
  have ends : ∀ scan : Scan, (if isEnd line then { scan with endFound := true } else scan) =
      { scan with endFound := scan.endFound || isEnd line } := by
    intro scan
    cases isEnd line <;> simp
  unfold scanLine found
  simp only [ends]
  cases begins : isBegin line with
  | false => simp [isPicture, begins]
  | true =>
    cases mentions : view.mentionsImage line with
    | false => simp [isPicture, begins, mentions]
    | true =>
      have enough : 3 ≤ (splitWords line).length := named (by simp [isPicture, begins, mentions])
      obtain ⟨first, mode, name, more, parts⟩ := exists_cons_cons_cons enough
      simp [isPicture, begins, mentions, foldl_appendPart, nameOf, parts]

theorem scanLine_of_not_named (scan : Scan) {line : Text} (unnamed : ¬ view.Named line) :
    view.scanLine scan line = none := by
  obtain ⟨picture, short⟩ := not_forall.mp unnamed
  obtain ⟨begins, mentions⟩ := Bool.and_eq_true_iff.mp picture
  have missing : (splitWords line)[2]? = none := List.getElem?_eq_none (by omega)
  simp [scanLine, begins, mentions, missing]

theorem scanLine_eq (scan : Scan) (line : Text) :
    view.scanLine scan line = if view.Named line then some (view.found scan [line]) else none := by
  split
  · rename_i named
    exact view.scanLine_of_named scan named
  · rename_i unnamed
    exact view.scanLine_of_not_named scan unnamed

theorem found_append (scan : Scan) (front back : List Text) :
    view.found (view.found scan front) back = view.found scan (front ++ back) := by
  simp only [found, List.any_append, Bool.or_assoc, List.filter_append, List.getLast?_append]
  cases (back.filter view.isPicture).getLast? with
  | none => simp
  | some line => simp

/-- The walk ends with what `found` says, unless the head of a picture has no third piece. -/
theorem foldlM_scanLine (scan : Scan) (lines : List Text) :
    lines.foldlM view.scanLine scan = if ∀ line ∈ lines, view.Named line then some (view.found scan lines) else none := by
  induction lines generalizing scan with
  | nil => simp [found]
  | cons line lines inductionHypothesis =>
    rw [List.foldlM_cons, scanLine_eq]
    by_cases named : view.Named line
    · rw [if_pos named, Option.bind_eq_bind, Option.bind_some, inductionHypothesis, found_append]
      simp [named]
    · rw [if_neg named]
      simp [named]

theorem scan_eq (article : Text) :
    view.scan article = if ∀ line ∈ split article, view.Named line then some (view.found {} (split article)) else none :=
  view.foldlM_scanLine {} (split article)

/-- The head of the picture that is decoded: the last one, if some line starts with `end`. -/
def pictureOf (lines : List Text) : Option Text :=
  if lines.any isEnd then (lines.filter view.isPicture).getLast? else none

theorem mem_of_pictureOf {lines : List Text} {line : Text} (isPicture : view.pictureOf lines = some line) :
    line ∈ lines ∧ view.isPicture line = true ∧ lines.any isEnd = true := by
  unfold pictureOf at isPicture
  split at isPicture
  · rename_i ends
    have inside := List.mem_of_getLast? isPicture
    rw [List.mem_filter] at inside
    exact ⟨inside.1, inside.2, ends⟩
  · cases isPicture

theorem onNewArticle_eq (machine : Machine) (article : Text) :
    view.onNewArticle machine article =
      if ∀ line ∈ split article, view.Named line then
        some (((view.pictureOf (split article)).elim [] fun line => view.decodeAndOpen machine (nameOf line) article) ++
          [.showArticle article])
      else none := by
  unfold onNewArticle
  rw [scan_eq]
  split
  · simp only [Option.bind_eq_bind, Option.bind_some, Option.pure_def, found, pictureOf, Bool.false_or]
    cases last : ((split article).filter view.isPicture).getLast? with
    | none =>
      have noPicture : (split article).any view.isPicture = false := by
        rw [List.getLast?_eq_none_iff, List.filter_eq_nil_iff] at last
        simpa using last
      simp [noPicture]
    | some line =>
      obtain ⟨inside, picture⟩ := List.mem_filter.mp (List.mem_of_getLast? last)
      have isImage : (split article).any view.isPicture = true := List.any_eq_true.mpr ⟨line, inside, picture⟩
      have begins : (split article).any isBegin = true :=
        List.any_eq_true.mpr ⟨line, inside, (Bool.and_eq_true_iff.mp picture).1⟩
      cases ends : (split article).any isEnd <;> simp [isImage, begins]
  · rfl

section Effects

variable (machine : Machine) (filename article : Text)

/-- `uudecode` returns 0. -/
def Decodes : Prop := machine.terminationStatus article = 0 ∨ machine.fileExists (view.decodedPath ++ filename) = true

theorem mem_decodeAndOpen_uudecode (other encodedFile : Text) :
    .uudecode other encodedFile ∈ view.decodeAndOpen machine filename article ↔
      other = filename ∧ encodedFile = article := by
  unfold decodeAndOpen uudecode openFile
  by_cases status : machine.terminationStatus article = 0
  · simp [status]
  · by_cases exist : machine.fileExists (view.decodedPath ++ filename) = true <;> simp [status, exist]

theorem mem_decodeAndOpen_fileExists (path : Text) :
    .fileExists path ∈ view.decodeAndOpen machine filename article ↔
      machine.terminationStatus article ≠ 0 ∧ path = view.decodedPath ++ filename := by
  unfold decodeAndOpen uudecode openFile
  by_cases status : machine.terminationStatus article = 0
  · simp [status]
  · by_cases exist : machine.fileExists (view.decodedPath ++ filename) = true <;> simp [status, exist]

theorem mem_decodeAndOpen_launchOpen (argument : Text) :
    .launchOpen argument ∈ view.decodeAndOpen machine filename article ↔
      view.Decodes machine filename article ∧ argument = view.argument (view.tmpPath ++ "/".toList ++ filename) := by
  unfold decodeAndOpen uudecode openFile Decodes
  by_cases status : machine.terminationStatus article = 0
  · simp [status]
  · by_cases exist : machine.fileExists (view.decodedPath ++ filename) = true <;> simp [status, exist]

end Effects

/-! ## What the view does for an article -/

section Does

variable (machine : Machine) (article : Text)

/-- The view has this effect. After a trap it has none. -/
def Does (effect : ViewEffect) : Prop := ∃ effects ∈ view.onNewArticle machine article, effect ∈ effects

theorem does_iff {effect : ViewEffect} (notShown : effect ≠ .showArticle article) :
    view.Does machine article effect ↔ (∀ line ∈ split article, view.Named line) ∧
      ∃ line ∈ view.pictureOf (split article), effect ∈ view.decodeAndOpen machine (nameOf line) article := by
  unfold Does
  rw [onNewArticle_eq]
  split
  · rename_i named
    rw [and_iff_right named]
    cases view.pictureOf (split article) with
    | none => simp [notShown]
    | some line => simp [notShown]
  · rename_i unnamed
    simp [unnamed]

theorem does_uudecode_iff (filename : Text) :
    view.Does machine article (.uudecode filename article) ↔ (∀ line ∈ split article, view.Named line) ∧
      ∃ line ∈ view.pictureOf (split article), filename = nameOf line := by
  rw [does_iff view machine article (by nofun)]
  simp only [mem_decodeAndOpen_uudecode, and_true]

theorem does_fileExists_iff (path : Text) :
    view.Does machine article (.fileExists path) ↔ (∀ line ∈ split article, view.Named line) ∧
      ∃ line ∈ view.pictureOf (split article),
        machine.terminationStatus article ≠ 0 ∧ path = view.decodedPath ++ nameOf line := by
  rw [does_iff view machine article (by nofun)]
  simp only [mem_decodeAndOpen_fileExists]

theorem does_launchOpen_iff (argument : Text) :
    view.Does machine article (.launchOpen argument) ↔ (∀ line ∈ split article, view.Named line) ∧
      ∃ line ∈ view.pictureOf (split article), view.Decodes machine (nameOf line) article ∧
        argument = view.argument (view.tmpPath ++ "/".toList ++ nameOf line) := by
  rw [does_iff view machine article (by nofun)]
  simp only [mem_decodeAndOpen_launchOpen]

end Does

end ArticleView

end EasyNews
