import Agora.Proofs.EnvValue

/-!
Where entries end in files of variables. The scan goes over the text of an entry, line feeds in
quotes among it, without taking any of it for its end or for a comment; so the entry is cut out
whole at the end of its last line, or at a comment behind a blank.
-/

namespace Agora.Settings.EnvFile

open Text

/-! ### Entries -/

/-- The scan goes from one state to another over some text, without meeting a comment and without
coming to the end of an entry at a line feed. -/
inductive Scan.Crosses : Scan → List Char → Scan → Prop
  | nil {s : Scan} : Crosses s [] s
  | cons {s s' : Scan} {c : Char} {cs : List Char} (on : s.step c ≠ .comment)
    (inside : c = '\n' → s.step c ≠ .plain) (later : Crosses (s.step c) cs s') :
    Crosses s (c :: cs) s'

theorem Scan.Crosses.append {s s' s'' : Scan} {cs ds : List Char} (h : s.Crosses cs s')
    (h' : s'.Crosses ds s'') : s.Crosses (cs ++ ds) s'' := by
  induction h with
  | nil => exact h'
  | cons on inside _ ih => exact .cons on inside (ih h')

/-- The scan is outside of quotes and escapes. -/
def Scan.Quiet (s : Scan) : Prop := s = .plain ∨ s = .blank

theorem scanLine_append {s s' : Scan} {cs : List Char} (h : s.Crosses cs s') (ds : List Char) :
    scanLine s (cs ++ ds) = (cs ++ (scanLine s' ds).1, (scanLine s' ds).2) := by
  induction h with
  | nil => rfl
  | @cons s s' c cs on inside _ ih =>
    rw [List.cons_append, scanLine]
    split
    · rename_i hcomment
      exact absurd hcomment on
    · rw [ih]
      rfl

/-- A text that begins, behind white space, with something other than the sign of a comment. -/
def Begins (cs : List Char) : Prop :=
  ∃ lead c more, cs = lead ++ c :: more ∧ (∀ d ∈ lead, isWhite d = true) ∧ isWhite c = false ∧
    c ≠ '#'

theorem Begins.append {cs : List Char} (h : Begins cs) (ds : List Char) : Begins (cs ++ ds) := by
  obtain ⟨lead, c, more, rfl, rest⟩ := h
  exact ⟨lead, c, more ++ ds, by simp, rest⟩

theorem Begins.head?_trimStart {cs : List Char} (h : Begins cs) :
    (trimStart cs).head? ≠ some '#' := by
  obtain ⟨lead, c, more, rfl, white, solid, hash⟩ := h
  rw [trimStart, List.dropWhile_append_of_pos white,
    List.dropWhile_cons_of_neg (Bool.eq_false_iff.1 solid)]
  exact fun heq => hash (Option.some.inj heq)

theorem linesOf_line {cs : List Char} (one : '\n' ∉ cs) (rest : List Char) :
    linesOf (cs ++ '\n' :: rest) = (cs ++ ['\n']) :: linesOf rest := by
  rw [linesOf, linesOf, pieces_append, pieces_of_not_mem one, List.singleton_append,
    List.reverse_cons]
  cases h : (pieces '\n' rest).reverse with
  | nil => exact absurd (List.reverse_eq_nil_iff.1 h) (pieces_ne_nil _ _)
  | cons last done => simp

theorem entriesFrom_line {begun line kept : List Char} {s next : Scan}
    (begins : (trimStart (begun ++ line)).head? ≠ some '#') (h : scanLine s line = (kept, next))
    (lines : List (List Char)) :
    entriesFrom begun s (line :: lines) =
      if next = .plain then some (dropLineEnd (begun ++ line)) :: entriesFrom [] .plain lines
      else if next = .comment then some (begun ++ kept) :: entriesFrom [] .plain lines
      else entriesFrom (begun ++ line) next lines := by
  rw [entriesFrom]
  · simp only [begins, if_false, h]
    cases next <;> rfl

/-- How an entry ends, where the scan is in a state on its last line: `last` is what is left of the
text, `rest` what comes behind that line, and `entry` makes the entry out of all that stands before
`last`. -/
def Ends (s : Scan) (last rest : List Char) (entry : List Char → List Char) : Prop :=
  ∀ begun s₀ pre, s₀.Crosses pre s → '\n' ∉ pre → Begins (begun ++ pre) → (pre = [] → s ≠ .plain) →
    entriesFrom begun s₀ (linesOf (pre ++ last)) =
      some (entry (begun ++ pre)) :: entriesFrom [] .plain (linesOf rest)

/-- An entry is read up to where its last line ends. -/
theorem entriesFrom_crosses {s s' : Scan} {cs last rest : List Char} {entry : List Char → List Char}
    (ends : Ends s' last rest entry) (h : s.Crosses cs s') (begun pre : List Char) {s₀ : Scan}
    (hpre : s₀.Crosses pre s) (one : '\n' ∉ pre) (begins : Begins (begun ++ pre))
    (filled : pre = [] → s ≠ .plain) :
    entriesFrom begun s₀ (linesOf (pre ++ cs ++ last)) =
      some (entry (begun ++ pre ++ cs)) :: entriesFrom [] .plain (linesOf rest) := by
  induction h generalizing begun pre s₀ with
  | nil =>
    rw [List.append_nil, List.append_nil]
    exact ends begun s₀ pre hpre one begins filled
  | @cons s s' c cs on inside _ ih =>
    have hstep : s.Crosses [c] (s.step c) := .cons on inside .nil
    by_cases hc : c = '\n'
    · -- the entry goes on behind the line feed
      subst hc
      have hscan := scanLine_append (hpre.append hstep) []
      rw [List.append_nil, scanLine] at hscan
      have hall : Begins (begun ++ (pre ++ ['\n'])) := by simpa using begins.append ['\n']
      have hnext := ih ends (begun ++ (pre ++ ['\n'])) [] .nil List.not_mem_nil
        (by rwa [List.append_nil]) fun _ => inside rfl
      rw [List.append_assoc, List.cons_append, linesOf_line one,
        entriesFrom_line hall.head?_trimStart hscan, if_neg (inside rfl), if_neg on]
      simpa using hnext
    · have hnext := ih ends begun (pre ++ [c]) (hpre.append hstep)
        (by simpa using ⟨one, Ne.symm hc⟩) (by simpa using begins.append [c])
        (fun hnil => absurd hnil (List.append_ne_nil_of_right_ne_nil _ (List.cons_ne_nil _ _)))
      simpa using hnext

/-- The first entry of a text. -/
theorem entriesFrom_entry {s s' : Scan} {pre cs last rest : List Char}
    {entry : List Char → List Char} (ends : Ends s' last rest entry)
    (hpre : Scan.plain.Crosses pre s) (one : '\n' ∉ pre) (begins : Begins pre)
    (h : s.Crosses cs s') :
    entriesFrom [] .plain (linesOf (pre ++ cs ++ last)) =
      some (entry (pre ++ cs)) :: entriesFrom [] .plain (linesOf rest) := by
  refine entriesFrom_crosses ends h [] pre hpre one begins fun hnil => absurd hnil ?_
  obtain ⟨lead, c, more, rfl, -⟩ := begins
  exact List.append_ne_nil_of_right_ne_nil _ (List.cons_ne_nil _ _)

theorem scanLine_lineFeed {s : Scan} (quiet : s.Quiet) : scanLine s ['\n'] = (['\n'], .plain) := by
  rcases quiet with rfl | rfl <;> rfl

/-- An entry ends at a line feed. -/
theorem ends_lineFeed {s : Scan} (quiet : s.Quiet) (rest : List Char) :
    Ends s ('\n' :: rest) rest fun all => dropLineEnd (all ++ ['\n']) := by
  intro begun s₀ pre hpre one begins _
  have hscan := scanLine_append hpre ['\n']
  rw [scanLine_lineFeed quiet] at hscan
  have hall : Begins (begun ++ (pre ++ ['\n'])) := by simpa using begins.append ['\n']
  rw [linesOf_line one, entriesFrom_line hall.head?_trimStart hscan, if_pos rfl,
    ← List.append_assoc]

/-- An entry ends at a comment behind a blank. -/
theorem ends_remark {text : List Char} (single : '\n' ∉ text) (rest : List Char) :
    Ends .blank ('#' :: (text ++ '\n' :: rest)) rest id := by
  intro begun s₀ pre hpre one begins _
  have hscan := scanLine_append hpre ('#' :: (text ++ ['\n']))
  have hcomment : scanLine .blank ('#' :: (text ++ ['\n'])) = ([], .comment) := rfl
  rw [hcomment] at hscan
  have hall : Begins (begun ++ (pre ++ '#' :: (text ++ ['\n']))) := by
    simpa using begins.append ('#' :: (text ++ ['\n']))
  have hone : '\n' ∉ pre ++ '#' :: text := by simp [one, single]
  have hline := linesOf_line hone rest
  simp only [List.append_assoc, List.cons_append] at hline
  rw [hline, entriesFrom_line hall.head?_trimStart hscan, if_neg (by decide), if_pos rfl,
    List.append_nil]
  rfl

/-- An entry ends where the text does. -/
theorem ends_last : Ends .plain [] [] dropLineEnd := by
  intro begun s₀ pre hpre one begins filled
  have hscan := scanLine_append hpre []
  rw [List.append_nil, scanLine, List.append_nil] at hscan
  have hlines : linesOf pre = [pre] := by
    have hne : pre ≠ [] := fun hnil => filled hnil rfl
    rw [linesOf, pieces_of_not_mem one]
    simp [hne]
  rw [List.append_nil, hlines, entriesFrom_line begins.head?_trimStart hscan, if_pos rfl]
  rfl

/-! ### The scan of an entry -/

section

variable {known : String → Option String} {t v cs : List Char} {s : Scan}

/-- A character that begins neither a quote nor an escape nor a comment, and ends no line. -/
def Calm (c : Char) : Prop := c ∉ ['\n', '#', '\\', '"', '\'']

/-- White space within a line. -/
def Hollow (cs : List Char) : Prop := ∀ c ∈ cs, c = ' ' ∨ c = '\t' ∨ c = '\r'

theorem Hollow.white (h : Hollow cs) : ∀ c ∈ cs, isWhite c = true := by
  intro c hc
  rcases h c hc with rfl | rfl | rfl <;> decide

theorem Hollow.calm (h : Hollow cs) : ∀ c ∈ cs, Calm c := by
  intro c hc
  rcases h c hc with rfl | rfl | rfl <;> unfold Calm <;> decide

theorem calm_of_isKeyChar {c : Char} (h : isKeyChar c = true) : Calm c ∧ isWhite c = false := by
  have hle (a b : Char) : a ≤ b ↔ a.toNat ≤ b.toNat := Iff.rfl
  have hc : 97 ≤ c.toNat ∧ c.toNat ≤ 122 ∨ 65 ≤ c.toNat ∧ c.toNat ≤ 90 ∨
      48 ≤ c.toNat ∧ c.toNat ≤ 57 ∨ c = '_' ∨ c = '.' := by
    simpa [isKeyChar, hle, or_assoc] using h
  constructor
  · intro hmem
    simp only [List.mem_cons, List.not_mem_nil, or_false] at hmem
    rcases hmem with rfl | rfl | rfl | rfl | rfl <;> revert hc <;> decide
  · rcases hc with hc | hc | hc | rfl | rfl
    · simp [isWhite, within, whiteRanges]; omega
    · simp [isWhite, within, whiteRanges]; omega
    · simp [isWhite, within, whiteRanges]; omega
    · decide
    · decide

theorem calm_iff {c : Char} :
    Calm c ↔ c ≠ '\n' ∧ c ≠ '#' ∧ c ≠ '\\' ∧ c ≠ '"' ∧ c ≠ '\'' := by
  simp [Calm]

theorem Scan.Quiet.step (quiet : s.Quiet) {c : Char} (calm : Calm c) : (s.step c).Quiet := by
  have hc := calm_iff.1 calm
  rcases quiet with rfl | rfl <;> simp only [Scan.step, hc, if_false]
  · split
    · exact .inr rfl
    · exact .inl rfl
  · exact .inl rfl

theorem Scan.Quiet.step_solid (quiet : s.Quiet) {c : Char} (calm : Calm c)
    (solid : isWhite c = false) : s.step c = .plain := by
  have hc := calm_iff.1 calm
  rcases quiet with rfl | rfl <;> simp [Scan.step, hc, solid]

theorem Scan.Quiet.step_gap {c : Char} (gap : isGap c = true) : Scan.plain.step c = .blank := by
  have hc : c = ' ' ∨ c = '\t' := by simpa [isGap] using gap
  rcases hc with rfl | rfl <;> decide

theorem crosses_calm (calm : ∀ c ∈ cs, Calm c) (quiet : s.Quiet) :
    ∃ s' : Scan, s'.Quiet ∧ s.Crosses cs s' := by
  induction cs generalizing s with
  | nil => exact ⟨s, quiet, .nil⟩
  | cons c cs ih =>
    obtain ⟨hc, hcs⟩ := List.forall_mem_cons.1 calm
    have hstep := quiet.step hc
    obtain ⟨s', quiet', h⟩ := ih hcs hstep
    refine ⟨s', quiet', .cons ?_ (fun hline => absurd hline (calm_iff.1 hc).1) h⟩
    intro hcomment
    rcases hstep with hstep | hstep <;> exact nomatch hcomment.symm.trans hstep

/-- Where the scan stays where it is, it crosses any text. -/
theorem crosses_of_stays (stays : ∀ c ∈ cs, s.step c = s) (on : s ≠ .comment)
    (inside : '\n' ∈ cs → s ≠ .plain) : s.Crosses cs s := by
  induction cs with
  | nil => exact .nil
  | cons c cs ih =>
    obtain ⟨hc, hcs⟩ := List.forall_mem_cons.1 stays
    refine .cons (hc.symm ▸ on) ?_ ?_
    · rintro rfl
      rw [hc]
      exact inside List.mem_cons_self
    · rw [hc]
      exact ih hcs fun hmem => inside (List.mem_cons_of_mem _ hmem)

theorem crosses_solid (h : ∀ c ∈ cs, Calm c ∧ isWhite c = false) :
    Scan.plain.Crosses cs .plain :=
  crosses_of_stays (fun c hc => Scan.Quiet.step_solid (.inl rfl) (h c hc).1 (h c hc).2) nofun
    fun hmem => absurd rfl (calm_iff.1 (h _ hmem).1).1

theorem crosses_weak (h : ∀ c ∈ cs, Calm c) : Scan.weak.Crosses cs .weak := by
  refine crosses_of_stays (fun c hc => ?_) nofun nofun
  have hc := calm_iff.1 (h c hc)
  simp [Scan.step, hc]

theorem crosses_char {c : Char} (plain : c ∉ ['\'', '"', '\\', '$']) (solid : isWhite c = false) :
    Scan.plain.Crosses [c] .plain := by
  have hc : c ≠ '\'' ∧ c ≠ '"' ∧ c ≠ '\\' ∧ c ≠ '$' := by simpa using plain
  refine crosses_of_stays (List.forall_mem_singleton.2 ?_) nofun fun hmem => ?_
  · simp [Scan.step, hc, solid]
  · obtain rfl := List.mem_singleton.1 hmem
    exact absurd solid (by decide)

theorem crosses_weak_char {c : Char} (plain : c ∉ ['"', '\\', '$']) :
    Scan.weak.Crosses [c] .weak := by
  have hc : c ≠ '"' ∧ c ≠ '\\' ∧ c ≠ '$' := by simpa using plain
  refine crosses_of_stays (List.forall_mem_singleton.2 ?_) nofun nofun
  simp [Scan.step, hc]

theorem isKeyChar_of_isAlphanum {c : Char} (h : c.isAlphanum = true) : isKeyChar c = true := by
  simp only [isKeyChar, Bool.or_eq_true, Bool.and_eq_true, decide_eq_true_eq]
  rcases cases_of_isAlphanum h with upper | lower | digit
  · exact .inl (.inl (.inl (.inr upper)))
  · exact .inl (.inl (.inl (.inl lower)))
  · exact .inl (.inl (.inr digit))

theorem Bare.calm {name : List Char} (h : Bare name) :
    ∀ c ∈ '$' :: name, Calm c ∧ isWhite c = false := by
  refine List.forall_mem_cons.2 ⟨⟨by unfold Calm; decide, by decide⟩, fun c hc => ?_⟩
  exact calm_of_isKeyChar (isKeyChar_of_isAlphanum (h.plain c hc))

theorem crosses_escape (h : Escape known t v) :
    Scan.plain.Crosses t .plain ∧ Scan.weak.Crosses t .weak := by
  cases h with
  | @sign c hc =>
    have hline : c ≠ '\n' := by rintro rfl; revert hc; decide
    exact ⟨.cons (by decide) nofun (.cons nofun (fun h => absurd h hline) .nil),
      .cons (by decide) nofun (.cons nofun nofun .nil)⟩
  | lineFeed =>
    exact ⟨.cons (by decide) nofun (.cons nofun nofun .nil),
      .cons (by decide) nofun (.cons nofun nofun .nil)⟩
  | @braced name plain =>
    have hplain : ∀ c ∈ '$' :: '{' :: (name ++ ['}']), Calm c ∧ isWhite c = false := by
      simp only [List.forall_mem_cons, List.forall_mem_append]
      refine ⟨?_, ?_, fun c hc => calm_of_isKeyChar (plain c hc), ?_, nofun⟩ <;>
        exact ⟨by unfold Calm; decide, by decide⟩
    exact ⟨crosses_solid hplain, crosses_weak fun c hc => (hplain c hc).1⟩

theorem crosses_quoted (h : Quoted known t v) : Scan.weak.Crosses t .weak := by
  induction h with
  | nil => exact .nil
  | char plain _ ih => exact (crosses_weak_char plain).append ih
  | escape escape _ ih => exact (crosses_escape escape).2.append ih
  | bare bare ends plain _ ih =>
    have hname := crosses_weak fun c hc => (bare.calm c hc).1
    exact hname.append ((crosses_weak_char plain).append ih)

theorem crosses_means (h : Means known t v) : Scan.plain.Crosses t .plain := by
  induction h with
  | nil => exact .nil
  | char plain solid _ ih => exact (crosses_char plain solid).append ih
  | escape escape _ ih => exact (crosses_escape escape).1.append ih
  | bare bare ends plain solid _ ih =>
    exact (crosses_solid bare.calm).append ((crosses_char plain solid).append ih)
  | @single cs t v plain _ ih =>
    have hquote : Scan.strong.Crosses cs .strong := by
      refine crosses_of_stays (fun c hc => ?_) nofun nofun
      have hc : c ≠ '\'' ∧ c ≠ '\\' := by simpa using plain c hc
      simp [Scan.step, hc]
    exact .cons (by decide) nofun (hquote.append (.cons (by decide) nofun ih))
  | @double t v t' v' quoted _ ih =>
    exact .cons (by decide) nofun ((crosses_quoted quoted).append (.cons (by decide) nofun ih))

end

end Agora.Settings.EnvFile
