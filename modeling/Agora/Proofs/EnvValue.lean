import Agora.Proofs.EnvFile

/-!
What the values in files of variables mean, told from how they are written: plain characters,
escapes, variables with or without braces, and parts in single or double quotes. A value is read as
what it means.
-/

namespace Agora.Settings.EnvFile

open Text

theorem isWhite_of_isGap {c : Char} (h : isGap c = true) : isWhite c = true := by
  have hc : c = ' ' ∨ c = '\t' := by simpa [isGap] using h
  rcases hc with rfl | rfl <;> decide

/-- What means the same inside and outside of double quotes: an escape, or a variable in braces. -/
inductive Escape (known : String → Option String) : List Char → List Char → Prop
  | sign {c : Char} (sign : c ∈ ['\\', '\'', '"', '$', ' ']) : Escape known ['\\', c] [c]
  | lineFeed : Escape known ['\\', 'n'] ['\n']
  | braced {name : List Char} (plain : ∀ c ∈ name, isKeyChar c = true) :
    Escape known ('$' :: '{' :: (name ++ ['}'])) ((known (String.ofList name)).getD "").toList

/-- The name of a variable that is not in braces. -/
structure Bare (name : List Char) : Prop where
  filled : name ≠ []
  plain : ∀ c ∈ name, c.isAlphanum = true

/-- What stands between double quotes, and what it means. -/
inductive Quoted (known : String → Option String) : List Char → List Char → Prop
  | nil : Quoted known [] []
  | char {c : Char} {text value : List Char} (plain : c ∉ ['"', '\\', '$'])
    (later : Quoted known text value) : Quoted known (c :: text) (c :: value)
  | escape {t v text value : List Char} (escape : Escape known t v)
    (later : Quoted known text value) : Quoted known (t ++ text) (v ++ value)
  | bare {name text value : List Char} {c : Char} (bare : Bare name) (ends : isWordChar c = false)
    (plain : c ∉ ['"', '\\', '$']) (later : Quoted known text value) :
    Quoted known ('$' :: (name ++ c :: text))
      (((known (String.ofList name)).getD "").toList ++ c :: value)

/-- What stands for a value, and what it means. -/
inductive Means (known : String → Option String) : List Char → List Char → Prop
  | nil : Means known [] []
  | char {c : Char} {text value : List Char} (plain : c ∉ ['\'', '"', '\\', '$'])
    (solid : isWhite c = false) (later : Means known text value) :
    Means known (c :: text) (c :: value)
  | escape {t v text value : List Char} (escape : Escape known t v)
    (later : Means known text value) : Means known (t ++ text) (v ++ value)
  | bare {name text value : List Char} {c : Char} (bare : Bare name) (ends : isWordChar c = false)
    (plain : c ∉ ['\'', '"', '\\', '$']) (solid : isWhite c = false)
    (later : Means known text value) :
    Means known ('$' :: (name ++ c :: text))
      (((known (String.ofList name)).getD "").toList ++ c :: value)
  | single {cs text value : List Char} (plain : ∀ c ∈ cs, c ∉ ['\'', '\\'])
    (later : Means known text value) : Means known ('\'' :: (cs ++ '\'' :: text)) (cs ++ value)
  | double {t v text value : List Char} (quoted : Quoted known t v)
    (later : Means known text value) : Means known ('"' :: (t ++ '"' :: text)) (v ++ value)

section

variable {known : String → Option String} {t v : List Char}

/-- A reader that is not in the middle of anything, inside or outside of double quotes. -/
def Reader.at (weak : Bool) (text : List Char) : Reader := ⟨false, weak, false, false, .none, text⟩

theorem run_braced (weak : Bool) (name text rest : List Char)
    (plain : ∀ c ∈ v, isKeyChar c = true) :
    Reader.run known ⟨false, weak, false, false, .braced name, text⟩ (v ++ '}' :: rest) =
      Reader.run known (.at weak
        (((known (String.ofList (name.reverse ++ v))).getD "").toList.reverse ++ text)) rest := by
  induction v generalizing name with
  | nil =>
    simp [Reader.run, Reader.step, Reader.stepName, Reader.substitute, Reader.push, Reader.at]
  | cons c v ih =>
    obtain ⟨hc, hv⟩ := List.forall_mem_cons.1 plain
    have hbrace : c ≠ '}' := by rintro rfl; exact absurd hc (by decide)
    have hnext := ih (c :: name) hv
    rw [List.reverse_cons, List.append_assoc, List.singleton_append] at hnext
    rw [← hnext]
    simp [Reader.run, Reader.step, Reader.stepName, hbrace]

theorem run_escape (h : Escape known t v) (weak : Bool) (text rest : List Char) :
    Reader.run known (.at weak text) (t ++ rest) =
      Reader.run known (.at weak (v.reverse ++ text)) rest := by
  cases h with
  | @sign c hc =>
    have hc' : c = '\\' ∨ c = '\'' ∨ c = '"' ∨ c = '$' ∨ c = ' ' := by simpa using hc
    cases weak <;> simp [Reader.run, Reader.step, Reader.at, Reader.push, hc']
  | lineFeed => cases weak <;> simp [Reader.run, Reader.step, Reader.at, Reader.push]
  | @braced name plain =>
    have hname := @run_braced known _ weak [] text rest plain
    have hbrace : isWordChar '{' = false := by decide
    simpa [Reader.run, Reader.step, Reader.stepName, Reader.at, hbrace] using hname

theorem cases_of_isAlphanum {c : Char} (h : c.isAlphanum = true) :
    ('A' ≤ c ∧ c ≤ 'Z') ∨ ('a' ≤ c ∧ c ≤ 'z') ∨ ('0' ≤ c ∧ c ≤ '9') := by
  rcases Bool.or_eq_true_iff.1 h with halpha | hdigit
  · rcases Bool.or_eq_true_iff.1 halpha with hupper | hlower
    · exact .inl (of_decide_eq_true hupper)
    · obtain ⟨hlow, hhigh⟩ := Bool.and_eq_true_iff.1 hlower
      exact .inr (.inl ⟨of_decide_eq_true hlow, of_decide_eq_true hhigh⟩)
  · obtain ⟨hlow, hhigh⟩ := Bool.and_eq_true_iff.1 hdigit
    exact .inr (.inr ⟨of_decide_eq_true hlow, of_decide_eq_true hhigh⟩)

theorem isWordChar_of_isAlphanum {c : Char} (h : c.isAlphanum = true) : isWordChar c = true := by
  have hlast : 'Z'.toNat = 90 ∧ 'z'.toNat = 122 ∧ '9'.toNat = 57 := by decide
  have hascii : c.toNat < 0x80 := by
    rcases cases_of_isAlphanum h with ⟨-, upper⟩ | ⟨-, lower⟩ | ⟨-, digit⟩
    · have : c.toNat ≤ 'Z'.toNat := upper
      omega
    · have : c.toNat ≤ 'z'.toNat := lower
      omega
    · have : c.toNat ≤ '9'.toNat := digit
      omega
  rw [isWordChar, if_pos hascii, h]

theorem run_bare (weak : Bool) (name text rest : List Char) {c : Char}
    (filled : name ≠ [] ∨ v ≠ []) (plain : ∀ c ∈ v, c.isAlphanum = true)
    (ends : isWordChar c = false) (dollar : c ≠ '$') :
    Reader.run known ⟨false, weak, false, false, .bare name, text⟩ (v ++ c :: rest) =
      Reader.run known (.at weak (c ::
        (((known (String.ofList (name.reverse ++ v))).getD "").toList.reverse ++ text))) rest := by
  induction v generalizing name with
  | nil =>
    have hname : name ≠ [] := filled.resolve_right fun h => h rfl
    simp [Reader.run, Reader.step, Reader.stepName, Reader.substitute, Reader.push, Reader.at, ends,
      dollar, hname]
  | cons d v ih =>
    obtain ⟨hd, hv⟩ := List.forall_mem_cons.1 plain
    have hnext := ih (d :: name) (.inl (List.cons_ne_nil _ _)) hv
    rw [List.reverse_cons, List.append_assoc, List.singleton_append] at hnext
    rw [← hnext]
    simp [Reader.run, Reader.step, Reader.stepName, isWordChar_of_isAlphanum hd]

theorem run_quoted (h : Quoted known t v) (text rest : List Char) :
    Reader.run known (.at true text) (t ++ rest) =
      Reader.run known (.at true (v.reverse ++ text)) rest := by
  induction h generalizing text with
  | nil => rfl
  | @char c t v plain _ ih =>
    have hc : c ≠ '"' ∧ c ≠ '\\' ∧ c ≠ '$' := by simpa using plain
    have hnext := ih (c :: text)
    simpa [Reader.run, Reader.step, Reader.at, Reader.push, hc] using hnext
  | escape escape _ ih =>
    rw [List.append_assoc, run_escape escape, ih, List.reverse_append, List.append_assoc]
  | @bare name t v c bare ends plain _ ih =>
    have hc : c ≠ '"' ∧ c ≠ '\\' ∧ c ≠ '$' := by simpa using plain
    have hname := @run_bare known _ true [] text (t ++ rest) c (.inr bare.filled) bare.plain ends
      hc.2.2
    rw [ih] at hname
    simpa [Reader.run, Reader.step, Reader.at] using hname

theorem run_single {cs : List Char} (plain : ∀ c ∈ cs, c ∉ ['\'', '\\']) (text rest : List Char) :
    Reader.run known ⟨true, false, false, false, .none, text⟩ (cs ++ '\'' :: rest) =
      Reader.run known (.at false (cs.reverse ++ text)) rest := by
  induction cs generalizing text with
  | nil => simp [Reader.run, Reader.step, Reader.at]
  | cons c cs ih =>
    obtain ⟨hc, hcs⟩ := List.forall_mem_cons.1 plain
    have hc : c ≠ '\'' ∧ c ≠ '\\' := by simpa using hc
    have hnext := ih hcs (c :: text)
    simpa [Reader.run, Reader.step, Reader.push, hc] using hnext

theorem run_means (h : Means known t v) (text : List Char) :
    Reader.run known (.at false text) t = some (.at false (v.reverse ++ text)) := by
  induction h generalizing text with
  | nil => rfl
  | @char c t v plain solid _ ih =>
    have hc : c ≠ '\'' ∧ c ≠ '"' ∧ c ≠ '\\' ∧ c ≠ '$' := by simpa using plain
    have hgap : isGap c = false :=
      Bool.eq_false_iff.2 fun hgap => Bool.false_ne_true (solid.symm.trans (isWhite_of_isGap hgap))
    have hnext := ih (c :: text)
    simpa [Reader.run, Reader.step, Reader.at, Reader.push, hc, hgap] using hnext
  | escape escape _ ih => rw [run_escape escape, ih, List.reverse_append, List.append_assoc]
  | @bare name t v c bare ends plain solid _ ih =>
    have hc : c ≠ '\'' ∧ c ≠ '"' ∧ c ≠ '\\' ∧ c ≠ '$' := by simpa using plain
    have hname := @run_bare known _ false [] text t c (.inr bare.filled) bare.plain ends hc.2.2.2
    rw [ih] at hname
    simpa [Reader.run, Reader.step, Reader.at] using hname
  | @single cs t v plain _ ih =>
    have hquote := @run_single known _ plain text t
    rw [ih] at hquote
    simpa [Reader.run, Reader.step, Reader.at] using hquote
  | @double t v t' v' quoted _ ih =>
    have hquote := run_quoted quoted text ('"' :: t')
    have hclose : Reader.run known (.at true (v.reverse ++ text)) ('"' :: t') =
        Reader.run known (.at false (v.reverse ++ text)) t' := by
      simp [Reader.run, Reader.step, Reader.at]
    rw [hclose, ih] at hquote
    simpa [Reader.run, Reader.step, Reader.at] using hquote

/-- Plain characters mean themselves. -/
theorem means_self {cs : List Char}
    (plain : ∀ c ∈ cs, c ∉ ['\'', '"', '\\', '$'] ∧ isWhite c = false) : Means known cs cs := by
  induction cs with
  | nil => exact .nil
  | cons c cs ih =>
    obtain ⟨hc, hcs⟩ := List.forall_mem_cons.1 plain
    exact .char hc.1 hc.2 (ih hcs)

/-- A value is read as what it means. -/
theorem readValue_means (h : Means known t v) : readValue known t = some (String.ofList v) := by
  have hrun := run_means h []
  rw [Reader.at] at hrun
  simp [readValue, Reader.start, hrun, Reader.at]

end

end Agora.Settings.EnvFile
