import Agora.Exposition
import Agora.Proofs.Digits
import Mathlib.Data.List.Perm.Basic

/-!
Texts that are one line, and the lines of a text that is made of lines. Lines are found again in
such a text just when none of them holds a line feed; a number written in digits holds none, whole
or not.
-/

namespace Agora.Exposition

open Text Decimal

/-! ### Lines of a text -/

/-- A text that is one line. -/
def Unbroken (s : String) : Prop := '\n' ∉ s.toList

instance (s : String) : Decidable (Unbroken s) := inferInstanceAs (Decidable (_ ∉ _))

@[simp] theorem unbroken_append {s t : String} : Unbroken (s ++ t) ↔ Unbroken s ∧ Unbroken t := by
  simp [Unbroken]

theorem linesOf_of_unbroken {s : String} (h : Unbroken s) : linesOf s = [s] := by
  rw [linesOf, pieces_of_not_mem h, List.map_singleton, String.ofList_toList]

theorem unbroken_of_mem_linesOf {s line : String} (h : line ∈ linesOf s) : Unbroken line := by
  obtain ⟨piece, hpiece, rfl⟩ := List.mem_map.1 h
  rw [Unbroken, String.toList_ofList]
  exact not_mem_of_mem_pieces hpiece

/-- The lines of a text that is made of lines are the lines of each of them. -/
theorem linesOf_join (lines : List String) :
    linesOf (String.join (lines.map (· ++ "\n"))) = lines.flatMap linesOf ++ [""] := by
  induction lines with
  | nil => rfl
  | cons line lines ih =>
    rw [List.map_cons, String.join_cons, List.flatMap_cons, List.append_assoc, ← ih, linesOf,
      linesOf, linesOf, ← List.map_append, ← pieces_append]
    congr 2
    simp

theorem flatMap_linesOf {lines : List String} (h : ∀ line ∈ lines, Unbroken line) :
    lines.flatMap linesOf = lines := by
  have hsame : lines.flatMap linesOf = lines.flatMap fun line => [line] :=
    List.flatMap_congr fun line hline => linesOf_of_unbroken (h line hline)
  rw [hsame, List.flatMap_singleton']

/-- Lines are found again in a text just when each of them is one line. -/
theorem linesOf_join_perm_iff {lines lines' : List String} (same : lines.Perm lines') :
    (linesOf (String.join (lines.map (· ++ "\n")))).Perm (lines' ++ [""]) ↔
      ∀ line ∈ lines, Unbroken line := by
  constructor
  · intro hperm line hline
    exact unbroken_of_mem_linesOf (hperm.mem_iff.2 (List.mem_append_left _ (same.mem_iff.1 hline)))
  · intro h
    rw [linesOf_join, flatMap_linesOf h]
    exact same.append_right _

/-! ### Numbers -/

theorem unbroken_digits (n : Nat) : '\n' ∉ digits n := fun h =>
  absurd (isDigit_of_mem_digits n _ h) (by decide)

theorem unbroken_signedDigits (i : Int) : '\n' ∉ signedDigits i := by
  cases i with
  | ofNat n => exact unbroken_digits n
  | negSucc n =>
    rw [signedDigits, List.mem_cons, not_or]
    exact ⟨by decide, unbroken_digits (n + 1)⟩

theorem unbroken_text (n : Nat) : Unbroken (text n) := by
  rw [Unbroken, text, String.toList_ofList]
  exact unbroken_digits n

theorem unbroken_full {l : Layout} (tail : Unbroken l.wholeTail) {ds : List Char}
    (h : '\n' ∉ ds) (point : Int) : '\n' ∉ l.full ds point := by
  have htake (k : Nat) : '\n' ∉ ds.take k := fun hk => h (List.mem_of_mem_take hk)
  have hdrop (k : Nat) : '\n' ∉ ds.drop k := fun hk => h (List.mem_of_mem_drop hk)
  rw [Unbroken] at tail
  unfold Layout.full
  split
  · simp [h, tail]
  · split
    · simp [htake, hdrop]
    · simp [h]

theorem unbroken_scientific {l : Layout} (mark : Unbroken l.exponentMark) {ds : List Char}
    (h : '\n' ∉ ds) (point : Int) : '\n' ∉ l.scientific ds point := by
  have hdrop : '\n' ∉ ds.drop 1 := fun hd => h (List.mem_of_mem_drop hd)
  simp only [Layout.scientific, List.mem_append, List.mem_cons, not_or]
  refine ⟨⟨fun ht => h (List.mem_of_mem_take ht), ?_⟩, by decide, ?_,
    unbroken_signedDigits (point - 1)⟩
  · split
    · exact List.not_mem_nil
    · rw [List.mem_cons, not_or]
      exact ⟨by decide, hdrop⟩
  · split
    · exact List.not_mem_nil
    · exact mark

theorem unbroken_write {l : Layout} (tail : Unbroken l.wholeTail) (mark : Unbroken l.exponentMark)
    (d : Scaled) : Unbroken (l.write d) := by
  have hdigits := unbroken_digits d.coefficient
  have hfull := unbroken_full tail hdigits
  have hscientific := unbroken_scientific mark hdigits
  simp only [Unbroken, Layout.write, String.toList_ofList]
  split <;> split <;> simp [hfull, hscientific]

theorem unbroken_secondsText (x : Float) : Unbroken (secondsText x) :=
  unbroken_write (by decide) (by decide) _

end Agora.Exposition
