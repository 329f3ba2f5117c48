import Agora.Text.Ranges

/-!
White space in text. A character is white when Unicode gives it the property `White_Space`;
a text is blank when nothing is left of it once white space is trimmed from both ends, which is
to say when all its characters are white.
-/

namespace Agora.Text

/-- The code points with the property `White_Space`, as ranges with both ends included. -/
def whiteRanges : List (Nat × Nat) :=
  [(0x09, 0x0D), (0x20, 0x20), (0x85, 0x85), (0xA0, 0xA0), (0x1680, 0x1680), (0x2000, 0x200A),
    (0x2028, 0x2029), (0x202F, 0x202F), (0x205F, 0x205F), (0x3000, 0x3000)]

/-- Whether a character is white space. -/
def isWhite (c : Char) : Bool := within whiteRanges c

/-- The text without the white space at its start. -/
def trimStart (cs : List Char) : List Char := cs.dropWhile isWhite

/-- The text without the white space at its end. -/
def trimEnd (cs : List Char) : List Char := (cs.reverse.dropWhile isWhite).reverse

/-- The text without the white space at both ends. -/
def trim (cs : List Char) : List Char := trimEnd (trimStart cs)

/-- Whether a character is a gap between words of a line: a space or a tab. -/
def isGap (c : Char) : Bool := c = ' ' || c = '\t'

/-- The text without the gap at its start. -/
def skipGap (cs : List Char) : List Char := cs.dropWhile isGap

/-- A blank text has no character that is not white space. -/
def isBlank (s : String) : Bool := s.toList.all isWhite

/-- Trimming leaves nothing exactly when every character is white. -/
theorem trimStart_eq_nil_iff (cs : List Char) : trimStart cs = [] ↔ cs.all isWhite := by
  induction cs with
  | nil => simp [trimStart]
  | cons c cs ih => by_cases h : isWhite c <;> simp_all [trimStart]

theorem trimStart_of_solid {cs : List Char} (solid : ∀ c ∈ cs.head?, isWhite c = false) :
    trimStart cs = cs := by
  cases cs with
  | nil => rfl
  | cons c cs => exact List.dropWhile_cons_of_neg (Bool.eq_false_iff.1 (solid c rfl))

theorem trimStart_append {ws cs : List Char} (white : ∀ c ∈ ws, isWhite c = true)
    (solid : ∀ c ∈ cs.head?, isWhite c = false) : trimStart (ws ++ cs) = cs := by
  rw [trimStart, List.dropWhile_append_of_pos white]
  exact trimStart_of_solid solid

theorem trimEnd_append {ws : List Char} (white : ∀ c ∈ ws, isWhite c = true) (cs : List Char) :
    trimEnd (cs ++ ws) = trimEnd cs := by
  rw [trimEnd, List.reverse_append,
    List.dropWhile_append_of_pos fun c hc => white c (List.mem_reverse.1 hc)]
  rfl

theorem trimEnd_of_solid {cs : List Char} (solid : ∀ c ∈ cs.getLast?, isWhite c = false) :
    trimEnd cs = cs := by
  have hreverse : cs.reverse.dropWhile isWhite = cs.reverse :=
    trimStart_of_solid (by rwa [List.head?_reverse])
  rw [trimEnd, hreverse, List.reverse_reverse]

end Agora.Text
