import EasyNews.NewsReader

/-! # What an NNTP server sends

Status lines and multi-line data blocks as RFC 3977 renders them: every line ends with CR LF, a
block line that begins with a dot gets another dot in front, and a single dot ends the block.
-/

namespace EasyNews

/-- A text that holds neither CR nor LF. -/
def IsLine (text : Text) : Prop := '\r' ∉ text ∧ '\n' ∉ text

instance (text : Text) : Decidable (IsLine text) := inferInstanceAs (Decidable (_ ∧ _))

theorem IsLine.unbroken {line : Text} (isLine : IsLine line) : crlf.Unbroken line :=
  crlf.unbroken_of_not_mem isLine.2

theorem IsLine.append {front back : Text} (isFront : IsLine front) (isBack : IsLine back) :
    IsLine (front ++ back) := by
  simp only [IsLine, List.mem_append, not_or]
  exact ⟨⟨isFront.1, isBack.1⟩, isFront.2, isBack.2⟩

/-- What stands behind a status code and its space, or behind the words the reader knows: a text that does
    not join them. -/
def IsStatus (text : Text) : Prop := IsLine text ∧ joined text = false

instance (text : Text) : Decidable (IsStatus text) := inferInstanceAs (Decidable (_ ∧ _))

theorem terminatorLine_isLine : IsLine terminatorLine := by decide

/-- A line of a block as it is sent. -/
def dotStuff (line : Text) : Text := if line.head? = some '.' then '.' :: line else line

theorem IsLine.dotStuff {line : Text} (isLine : IsLine line) : IsLine (dotStuff line) := by
  unfold EasyNews.dotStuff
  split
  · exact IsLine.append (by decide : IsLine ['.']) isLine
  · exact isLine

theorem dotStuff_ne_terminatorLine (line : Text) : dotStuff line ≠ terminatorLine := by
  unfold dotStuff terminatorLine
  split
  · rename_i stuffed
    intro same
    cases line with
    | nil => cases stuffed
    | cons first rest => cases same
  · rename_i plain
    rintro rfl
    exact plain rfl

theorem dotStuff_eq_self_iff (line : Text) : dotStuff line = line ↔ line.head? ≠ some '.' := by
  unfold dotStuff
  split
  · rename_i stuffed
    simp only [stuffed, ne_eq, not_true_eq_false, iff_false]
    exact List.cons_ne_self _ _
  · rename_i plain
    simp [plain]

/-- The lines of a multi-line reply: status line, stuffed data lines, the single dot. -/
def multiLine (status : Text) (lines : List Text) : List Text :=
  status :: lines.map dotStuff ++ [terminatorLine]

end EasyNews
