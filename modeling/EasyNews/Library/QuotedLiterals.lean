import Mathlib.Data.List.Basic

/-! # Quoted literals

A text is cut into symbols and quoted literals. A literal goes to the next occurrence of its quote; the
escape symbol in it lets the symbol behind it stand for itself. A text with an open literal has no pieces.

* `pieces_symbols` — symbols in front of the first quote.
* `exists_of_pieces_literal` — what a quoted body is read as: a literal is no longer than what was written,
  and as long only if it was written without quotes and escapes.
* `pieces_literal_iff` — which bodies are read back as they were written.
-/

namespace QuotedLiterals

variable {α : Type*}

structure Quoting (α : Type*) where
  quotes : List α
  escape : α

inductive Piece (α : Type*) where
  | symbol (symbol : α)
  | literal (value : List α)
deriving DecidableEq

def Piece.isSymbol : Piece α → Bool
  | .symbol _ => true
  | .literal _ => false

section Front

variable (front : List α) (value : List α) (rest : List (Piece α))

theorem isSymbol_of_mem_map {piece : Piece α} (inside : piece ∈ front.map Piece.symbol) : piece.isSymbol = true := by
  obtain ⟨symbol, -, rfl⟩ := List.mem_map.mp inside
  rfl

theorem takeWhile_isSymbol :
    (front.map Piece.symbol ++ .literal value :: rest).takeWhile Piece.isSymbol = front.map .symbol := by
  rw [List.takeWhile_append_of_pos fun _ => isSymbol_of_mem_map front, List.takeWhile_cons_of_neg (by simp [Piece.isSymbol]),
    List.append_nil]

theorem dropWhile_isSymbol :
    (front.map Piece.symbol ++ .literal value :: rest).dropWhile Piece.isSymbol = .literal value :: rest := by
  rw [List.dropWhile_append_of_pos fun _ => isSymbol_of_mem_map front, List.dropWhile_cons_of_neg (by simp [Piece.isSymbol])]

end Front

/-- Where the reading of a text is: outside of literals, in one, or behind an escape symbol in one. -/
inductive Place (α : Type*) where
  | outside
  | inside (quote : α) (value : List α)
  | escaped (quote : α) (value : List α)

namespace Quoting

/-- A body without its quote and without the escape symbol. -/
def Plain (quoting : Quoting α) (quote : α) (body : List α) : Prop := quote ∉ body ∧ quoting.escape ∉ body

theorem plain_nil (quoting : Quoting α) (quote : α) : quoting.Plain quote [] :=
  ⟨List.not_mem_nil, List.not_mem_nil⟩

theorem plain_cons_iff {quoting : Quoting α} {quote symbol : α} {body : List α} :
    quoting.Plain quote (symbol :: body) ↔ symbol ≠ quote ∧ symbol ≠ quoting.escape ∧ quoting.Plain quote body := by
  simp only [Plain, List.mem_cons, not_or, ne_eq, eq_comm]
  tauto

variable [DecidableEq α] (quoting : Quoting α)

def piecesFrom : Place α → List α → Option (List (Piece α))
  | .outside, [] => some []
  | .inside _ _, [] => none
  | .escaped _ _, [] => none
  | .outside, symbol :: rest =>
    if symbol ∈ quoting.quotes then piecesFrom (.inside symbol []) rest
    else (piecesFrom .outside rest).map (.symbol symbol :: ·)
  | .inside quote value, symbol :: rest =>
    if symbol = quote then (piecesFrom .outside rest).map (.literal value :: ·)
    else if symbol = quoting.escape then piecesFrom (.escaped quote value) rest
    else piecesFrom (.inside quote (value ++ [symbol])) rest
  | .escaped quote value, symbol :: rest => piecesFrom (.inside quote (value ++ [symbol])) rest

def pieces (text : List α) : Option (List (Piece α)) := quoting.piecesFrom .outside text

variable {quoting}

theorem pieces_symbols {front : List α} (unquoted : ∀ symbol ∈ front, symbol ∉ quoting.quotes) (rest : List α) :
    quoting.pieces (front ++ rest) = (quoting.pieces rest).map (front.map .symbol ++ ·) := by
  induction front with
  | nil => simp
  | cons symbol front inductionHypothesis =>
    have later := inductionHypothesis fun other inside => unquoted other (List.mem_cons_of_mem _ inside)
    rw [pieces] at later
    rw [pieces, List.cons_append, piecesFrom, if_neg (unquoted symbol List.mem_cons_self), later, Option.map_map]
    rfl

/-- A literal that is read to its end: what was written, the value read of it, and what stands behind its
    quote. -/
structure Read (quoting : Quoting α) (quote : α) (text written value back : List α) : Prop where
  split : text = written ++ quote :: back
  short : value.length ≤ written.length
  asWritten : value.length = written.length → value = written ∧ quoting.Plain quote written

theorem exists_of_inside {quote : α} : ∀ {text value : List α} {pieces : List (Piece α)},
    quoting.piecesFrom (.inside quote value) text = some pieces →
      ∃ written more back rest, quoting.Read quote text written more back ∧
        quoting.pieces back = some rest ∧ pieces = .literal (value ++ more) :: rest
  | [], _, _, read => by cases read
  | symbol :: text, value, pieces, read => by
    rw [piecesFrom] at read
    split at read
    · -- the closing quote
      rename_i closes
      obtain ⟨rest, isRest, rfl⟩ := Option.map_eq_some_iff.mp read
      refine ⟨[], [], text, rest, ⟨by rw [closes]; rfl, Nat.le_refl _, fun _ => ⟨rfl, quoting.plain_nil quote⟩⟩, isRest, ?_⟩
      rw [List.append_nil]
    · rename_i notQuote
      split at read
      · -- an escape makes the value shorter than what was written
        cases text with
        | nil => cases read
        | cons next text =>
          rw [piecesFrom] at read
          obtain ⟨written, more, back, rest, isRead, isRest, rfl⟩ := exists_of_inside read
          have short := isRead.short
          refine ⟨symbol :: next :: written, next :: more, back, rest, ⟨?_, ?_, fun same => ?_⟩, isRest, ?_⟩
          · rw [isRead.split]
            rfl
          · simp only [List.length_cons]
            omega
          · simp only [List.length_cons] at same
            omega
          · rw [List.append_assoc]
            rfl
      · rename_i notEscape
        obtain ⟨written, more, back, rest, isRead, isRest, rfl⟩ := exists_of_inside read
        refine ⟨symbol :: written, symbol :: more, back, rest, ⟨?_, ?_, fun same => ?_⟩, isRest, ?_⟩
        · rw [isRead.split]
          rfl
        · exact Nat.succ_le_succ isRead.short
        · obtain ⟨rfl, plain⟩ := isRead.asWritten (Nat.succ.inj same)
          exact ⟨rfl, plain_cons_iff.mpr ⟨notQuote, notEscape, plain⟩⟩
        · rw [List.append_assoc]
          rfl

theorem eq_nil_of_pieces {text : List α} (nothing : quoting.pieces text = some []) : text = [] := by
  cases text with
  | nil => rfl
  | cons symbol rest =>
    rw [pieces, piecesFrom] at nothing
    split at nothing
    · obtain ⟨_, _, _, _, -, -, isLiteral⟩ := exists_of_inside nothing
      cases isLiteral
    · obtain ⟨_, -, isSymbol⟩ := Option.map_eq_some_iff.mp nothing
      cases isSymbol

theorem inside_of_plain {quote : α} {body : List α} (plain : quoting.Plain quote body) (value : List α) :
    quoting.piecesFrom (.inside quote value) (body ++ [quote]) = some [.literal (value ++ body)] := by
  induction body generalizing value with
  | nil => simp [piecesFrom]
  | cons symbol body inductionHypothesis =>
    obtain ⟨notQuote, notEscape, plainLater⟩ := plain_cons_iff.mp plain
    rw [List.cons_append, piecesFrom, if_neg notQuote, if_neg notEscape, inductionHypothesis plainLater,
      List.append_assoc]
    rfl

section Literal

variable {quote : α} {front : List α} (isQuote : quote ∈ quoting.quotes)
  (unquoted : ∀ symbol ∈ front, symbol ∉ quoting.quotes)
include isQuote unquoted

/-- A quoted body behind some symbols: a literal, or more than one piece, or no pieces. -/
theorem exists_of_pieces_literal {body : List α} {found : List (Piece α)}
    (read : quoting.pieces (front ++ (quote :: body ++ [quote])) = some found) :
    ∃ written value back rest, quoting.Read quote (body ++ [quote]) written value back ∧
      quoting.pieces back = some rest ∧ found = front.map .symbol ++ .literal value :: rest := by
  rw [pieces_symbols unquoted, List.cons_append, pieces, piecesFrom, if_pos isQuote] at read
  obtain ⟨behind, isBehind, rfl⟩ := Option.map_eq_some_iff.mp read
  obtain ⟨written, value, back, rest, isRead, isRest, rfl⟩ := exists_of_inside isBehind
  exact ⟨written, value, back, rest, isRead, isRest, rfl⟩

/-- The body is read back as it is written exactly if it is plain. -/
theorem pieces_literal_iff (body : List α) :
    quoting.pieces (front ++ (quote :: body ++ [quote])) = some (front.map .symbol ++ [.literal body]) ↔
      quoting.Plain quote body := by
  constructor
  · intro read
    obtain ⟨written, value, back, rest, isRead, isRest, same⟩ := exists_of_pieces_literal isQuote unquoted read
    obtain ⟨isValue, isNothing⟩ := List.cons.inj (List.append_cancel_left same)
    rw [← isNothing] at isRest
    have split := isRead.split
    rw [eq_nil_of_pieces isRest] at split
    have isWritten : body = written := (List.append_inj_left' split rfl)
    subst isWritten
    exact (isRead.asWritten (by rw [Piece.literal.inj isValue])).2
  · intro plain
    rw [pieces_symbols unquoted, List.cons_append, pieces, piecesFrom, if_pos isQuote, inside_of_plain plain]
    rfl

end Literal

end Quoting

end QuotedLiterals
