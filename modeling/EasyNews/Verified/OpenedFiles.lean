import EasyNews.ArticleViews
import EasyNews.Library.Paths

/-! # Which files the view opens

The name of a picture goes into a path as the article has it, directories and dots included. The file that is
opened lies in the folder of the pictures exactly if the name comes back to this folder before its last part.
-/

namespace EasyNews.Verified.OpenedFiles

open Paths

/-- The paths of the file system. -/
def paths : PathSyntax Char := ⟨'/', '.'⟩

/-- What is opened lies in the folder, and is the file that `uudecode` looks for. -/
structure Confined (machine : Machine) (article : Text) : Prop where
  inFolder : ∀ path, meganTableView.Does machine article (.launchOpen path) →
    ∃ child, paths.resolve path = paths.resolve meganTableView.tmpPath ++ [child]
  sameFile : ∀ path checked, meganTableView.Does machine article (.launchOpen path) →
    meganTableView.Does machine article (.fileExists checked) → paths.resolve checked = paths.resolve path

/-- The name climbs, if at all, and descends again the way it has climbed, and then once more. -/
def StaysInFolder (name : Text) : Prop :=
  (climbs (paths.stepsOf name)).Returns (paths.resolve meganTableView.tmpPath)

instance : DecidablePred StaysInFolder := fun name =>
  inferInstanceAs (Decidable ((climbs (paths.stepsOf name)).Returns (paths.resolve meganTableView.tmpPath)))

/-- The name on the head that counts stays in the folder, unless the view traps or nothing is decoded. -/
def ProperName (machine : Machine) (article : Text) : Prop :=
  (∀ line ∈ split article, meganTableView.Named line) → ∀ line ∈ meganTableView.pictureOf (split article),
    meganTableView.Decodes machine (nameOf line) article → StaysInFolder (nameOf line)

theorem staysInFolder_iff (name : Text) :
    (∃ child, paths.resolve (meganTableView.tmpPath ++ "/".toList ++ name) =
      paths.resolve meganTableView.tmpPath ++ [child]) ↔ StaysInFolder name := by
  rw [List.append_assoc]
  exact paths.isChild_resolve_iff meganTableView.tmpPath name

theorem confined_iff_properName (machine : Machine) (article : Text) :
    Confined machine article ↔ ProperName machine article := by
  constructor
  · intro confined named line counts decodes
    rw [← staysInFolder_iff]
    exact confined.inFolder _ ((meganTableView.does_launchOpen_iff machine article _).mpr
      ⟨named, line, counts, decodes, rfl⟩)
  · intro proper
    constructor
    · intro path opens
      obtain ⟨named, line, counts, decodes, rfl⟩ := (meganTableView.does_launchOpen_iff machine article path).mp opens
      exact (staysInFolder_iff (nameOf line)).mpr (proper named line counts decodes)
    · intro path checked opens checks
      obtain ⟨-, line, counts, -, rfl⟩ := (meganTableView.does_launchOpen_iff machine article path).mp opens
      obtain ⟨-, other, otherCounts, -, rfl⟩ := (meganTableView.does_fileExists_iff machine article checked).mp checks
      -- both are `tmpPath`, a slash and the name on the same head
      rw [Option.mem_unique otherCounts counts]
      rfl

def climbing : Text := crlf.render ["begin 644 ../x.jpg".toList, "end".toList]

theorem climbing_not_confined : ¬ ∀ machine article, Confined machine article := by
  intro confined
  have opens : meganTableView.Does decodingMachine climbing (.launchOpen "/Users/mbergamo/tmp/../x.jpg".toList) :=
    ⟨_, rfl, by decide⟩
  obtain ⟨child, isChild⟩ := (confined decodingMachine climbing).inFolder _ opens
  have lengths := congrArg List.length isChild
  rw [List.length_append, List.length_singleton] at lengths
  exact absurd lengths (by decide)

end EasyNews.Verified.OpenedFiles
