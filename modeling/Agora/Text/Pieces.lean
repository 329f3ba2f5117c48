/-!
Cutting a sequence at a separator, and a few questions about texts that the readers ask. Main
statements: a separator ends a piece whatever stands before it, and no piece holds one.
-/

namespace Agora.Text

/-- The pieces of a sequence between separators: always one more than there are separators. -/
def pieces [DecidableEq α] (sep : α) : List α → List (List α)
  | [] => [[]]
  | x :: xs =>
    if x = sep then [] :: pieces sep xs
    else
      match pieces sep xs with
      | [] => [[x]]
      | p :: ps => (x :: p) :: ps

theorem pieces_ne_nil [DecidableEq α] (sep : α) (xs : List α) : pieces sep xs ≠ [] := by
  cases xs with
  | nil => exact List.cons_ne_nil _ _
  | cons x xs =>
    unfold pieces
    split
    · exact List.cons_ne_nil _ _
    · split <;> exact List.cons_ne_nil _ _

/-- A separator ends a piece, whatever stands before it. -/
theorem pieces_append [DecidableEq α] (sep : α) (xs ys : List α) :
    pieces sep (xs ++ sep :: ys) = pieces sep xs ++ pieces sep ys := by
  induction xs with
  | nil => exact if_pos rfl
  | cons x xs ih =>
    rw [List.cons_append, pieces, pieces, ih]
    split
    · rfl
    · cases h : pieces sep xs with
      | nil => exact absurd h (pieces_ne_nil sep xs)
      | cons p ps => rfl

/-- No piece holds a separator. -/
theorem not_mem_of_mem_pieces [DecidableEq α] {sep : α} {xs p : List α} (h : p ∈ pieces sep xs) :
    sep ∉ p := by
  induction xs generalizing p with
  | nil =>
    rw [List.mem_singleton.1 h]
    exact List.not_mem_nil
  | cons x xs ih =>
    unfold pieces at h
    split at h
    · obtain rfl | htail := List.mem_cons.1 h
      · exact List.not_mem_nil
      · exact ih htail
    · rename_i hx
      cases hp : pieces sep xs with
      | nil => exact absurd hp (pieces_ne_nil sep xs)
      | cons q ps =>
        rw [hp] at h ih
        obtain rfl | htail := List.mem_cons.1 h
        · have hq := ih List.mem_cons_self
          exact fun hmem => (List.mem_cons.1 hmem).elim (fun heq => hx heq.symm) hq
        · exact ih (List.mem_cons_of_mem q htail)

theorem pieces_of_not_mem [DecidableEq α] {sep : α} {xs : List α} (h : sep ∉ xs) :
    pieces sep xs = [xs] := by
  induction xs with
  | nil => rfl
  | cons x xs ih =>
    obtain ⟨hx, hxs⟩ := not_or.1 (mt List.mem_cons.2 h)
    rw [pieces, if_neg (Ne.symm hx), ih hxs]

/-- The rest of a sequence after a given start, if it starts so. -/
def stripStart? [DecidableEq α] : List α → List α → Option (List α)
  | [], xs => some xs
  | _ :: _, [] => none
  | p :: ps, x :: xs => if p = x then stripStart? ps xs else none

/-- The number of bytes a text takes in UTF-8. -/
def byteCount (cs : List Char) : Nat := cs.foldl (fun n c => n + c.utf8Size) 0

end Agora.Text
