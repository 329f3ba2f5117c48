import Agora.Proofs.EnvScan
import Mathlib.Data.List.TakeWhile

/-!
What files of variables say, told from how they are written. A line is blank, a comment, or an
assignment with a value; behind a value there may be white space, or a comment after a blank. A word
that stands by itself on its line ends the reading. Such a file assigns what it says.
-/

namespace Agora.Settings.EnvFile

open Text

/-! ### Lines -/

/-- The name of a variable. -/
structure Name (name : List Char) : Prop where
  filled : name ≠ []
  plain : ∀ c ∈ name, isKeyChar c = true
  opens : ∀ c ∈ name.head?, c ≠ '.' ∧ ¬ ('0' ≤ c ∧ c ≤ '9')

/-- What may stand before the name that is assigned: the word `export` and white space. -/
inductive Export : List Char → Prop
  | none : Export []
  | word {gap : List Char} (filled : gap ≠ []) (hollow : Hollow gap) :
    Export ("export".toList ++ gap)

/-- What an entry assigns, and to which name. -/
inductive Assigns (known : String → Option String) : List Char → String × String → Prop
  | intro {lead word name before after text value : List Char}
    (hollow : Hollow (lead ++ before ++ after)) (exports : Export word) (named : Name name)
    (means : Means known text value) (hash : text.head? ≠ some '#')
    (ends : ∀ c ∈ text.getLast?, isWhite c = false) (close : text = [] → after = []) :
    Assigns known (lead ++ word ++ name ++ before ++ '=' :: (after ++ text))
      (String.ofList name, String.ofList value)

/-- What a text assigns, line by line. -/
inductive Says : List (String × String) → List Char → List (String × String) → Prop
  | done {env : List (String × String)} : Says env [] []
  | blank {env as : List (String × String)} {gap rest : List Char} (hollow : Hollow gap)
    (later : Says env rest as) : Says env (gap ++ '\n' :: rest) as
  | comment {env as : List (String × String)} {gap text rest : List Char} (hollow : Hollow gap)
    (one : '\n' ∉ text) (later : Says env rest as) :
    Says env (gap ++ '#' :: (text ++ '\n' :: rest)) as
  | assign {env as : List (String × String)} {a : String × String} {entry gap rest : List Char}
    (assigns : Assigns (EnvFile.valueOf env) entry a) (hollow : Hollow gap)
    (later : Says (env ++ [a]) rest as) : Says env (entry ++ gap ++ '\n' :: rest) (a :: as)
  | remark {env as : List (String × String)} {a : String × String} {entry text rest : List Char}
    {blank : Char} (assigns : Assigns (EnvFile.valueOf env) entry a) (hollow : isGap blank = true)
    (one : '\n' ∉ text) (later : Says (env ++ [a]) rest as) :
    Says env (entry ++ [blank] ++ '#' :: (text ++ '\n' :: rest)) (a :: as)
  | last {env : List (String × String)} {a : String × String} {entry : List Char}
    (assigns : Assigns (EnvFile.valueOf env) entry a) : Says env entry [a]
  | stray {env : List (String × String)} {word rest : List Char} (filled : word ≠ [])
    (plain : ∀ c ∈ word, isKeyChar c = true) : Says env (word ++ '\n' :: rest) []

/-! ### Reading an entry -/

section

variable {known : String → Option String} {a : String × String} {cs ws entry text value : List Char}

theorem white_lineFeed : ∀ c ∈ ['\n'], isWhite c = true := List.forall_mem_singleton.2 (by decide)

theorem white_return : ∀ c ∈ ['\r', '\n'], isWhite c = true :=
  List.forall_mem_cons.2 ⟨by decide, white_lineFeed⟩

theorem trimEnd_dropLineEnd (cs : List Char) : trimEnd (dropLineEnd cs) = trimEnd cs := by
  rw [dropLineEnd]
  split
  · rename_i rest heq
    have hcs : cs = rest.reverse ++ ['\r', '\n'] := by simpa using congrArg List.reverse heq
    rw [hcs, trimEnd_append white_return]
  · rename_i rest _ heq
    have hcs : cs = rest.reverse ++ ['\n'] := by simpa using congrArg List.reverse heq
    rw [hcs, trimEnd_append white_lineFeed]
  · rfl

theorem Means.solid (h : Means known text value) : ∀ c ∈ text.head?, isWhite c = false := by
  intro c hc
  cases h with
  | nil => exact nomatch hc
  | char _ solid _ => exact Option.some.inj hc ▸ solid
  | escape escape _ => cases escape <;> exact Option.some.inj hc ▸ by decide
  | _ => exact Option.some.inj hc ▸ by decide

theorem name_export : Name "export".toList where
  filled := by decide
  plain := List.all_eq_true.1 (by decide)
  opens := fun c hc => Option.some.inj hc ▸ by decide

theorem Export.calm {word : List Char} (h : Export word) : ∀ c ∈ word, Calm c := by
  cases h with
  | none => exact nofun
  | word filled hollow =>
    exact List.forall_mem_append.2
      ⟨fun c hc => (calm_of_isKeyChar (name_export.plain c hc)).1, hollow.calm⟩

theorem Export.opens {word name : List Char} (h : Export word) (named : Name name) :
    ∃ c more, word ++ name = c :: more ∧ isKeyChar c = true := by
  cases h with
  | none =>
    obtain ⟨c, more, rfl⟩ := List.exists_cons_of_ne_nil named.filled
    exact ⟨c, more, rfl, named.plain c List.mem_cons_self⟩
  | word filled hollow => exact ⟨_, _, rfl, by decide⟩

theorem readName_name {name rest : List Char} (named : Name name)
    (ends : ∀ c ∈ rest.head?, isKeyChar c = false) :
    readName (name ++ rest) = some (String.ofList name, trimStart rest) := by
  have htake : (name ++ rest).takeWhile isKeyChar = name := by
    rw [List.takeWhile_append_of_pos named.plain]
    cases rest with
    | nil => simp
    | cons c rest => simp [ends c rfl]
  have hdrop : (name ++ rest).dropWhile isKeyChar = rest := by
    rw [List.dropWhile_append_of_pos named.plain]
    cases rest with
    | nil => rfl
    | cons c rest => exact List.dropWhile_cons_of_neg (Bool.eq_false_iff.1 (ends c rfl))
  obtain ⟨c, more, rfl⟩ := List.exists_cons_of_ne_nil named.filled
  obtain ⟨hdot, hdigit⟩ := named.opens c rfl
  rw [readName, htake, hdrop]
  simp [hdot, hdigit]

theorem not_isKeyChar_of_hollow {rest : List Char} (hollow : Hollow ws)
    (ends : ∀ c ∈ rest.head?, isKeyChar c = false) :
    ∀ c ∈ (ws ++ rest).head?, isKeyChar c = false := by
  cases ws with
  | nil => exact ends
  | cons d ws =>
    intro c hc
    obtain rfl : d = c := Option.some.inj hc
    rcases hollow d List.mem_cons_self with rfl | rfl | rfl <;> decide

theorem Scan.Quiet.crosses_solid {s : Scan} (quiet : s.Quiet) {c : Char} (calm : Calm c)
    (solid : isWhite c = false) : s.Crosses [c] .plain := by
  have hstep : s.step c = .plain := quiet.step_solid calm solid
  refine .cons ?_ (fun hline => absurd hline (calm_iff.1 calm).1) ?_ <;> rw [hstep]
  · exact nofun
  · exact .nil

/-- A value may begin behind a gap, where only the sign of a comment would be taken for more than it
is in the value. -/
theorem Scan.Quiet.crosses_means {s : Scan} (quiet : s.Quiet) (h : Means known text value)
    (filled : text ≠ []) (hash : text.head? ≠ some '#') : s.Crosses text .plain := by
  have hplain := EnvFile.crosses_means h
  rcases quiet with rfl | rfl
  · exact hplain
  · have hsolid := h.solid
    cases hplain with
    | nil => exact absurd rfl filled
    | @cons _ _ c cs on inside later =>
      have hhash : c ≠ '#' := fun heq => hash (congrArg some heq)
      have hstep : Scan.blank.step c = Scan.plain.step c := by
        simp [Scan.step, hhash, hsolid c rfl]
      rw [← hstep] at on inside later
      exact .cons on inside later

/-- The word before a name is read as a name first. -/
theorem readName_export {gap rest : List Char} {c : Char} (hollow : Hollow gap) (filled : gap ≠ [])
    (opens : rest.head? = some c) (key : isKeyChar c = true) :
    readName ("export".toList ++ (gap ++ rest)) = some ("export", rest) := by
  obtain ⟨d, ds, rfl⟩ := List.exists_cons_of_ne_nil filled
  have hends : ∀ e ∈ (d :: ds ++ rest).head?, isKeyChar e = false := fun e he => by
    obtain rfl : d = e := Option.some.inj he
    rcases hollow d List.mem_cons_self with rfl | rfl | rfl <;> decide
  rw [readName_name name_export hends, trimStart_append hollow.white]
  · rfl
  · exact fun e he => Option.some.inj (opens.symm.trans he) ▸ (calm_of_isKeyChar key).2

theorem afterEquals_eq_none {rest : List Char} {c : Char} (opens : rest.head? = some c)
    (key : isKeyChar c = true) : afterEquals rest = none := by
  have hne : c ≠ '=' := by rintro rfl; revert key; decide
  cases rest with
  | nil => rfl
  | cons d rest =>
    obtain rfl : d = c := Option.some.inj opens
    rw [afterEquals]
    simpa using hne

theorem splitEntry_assigns {word name before after : List Char} (hollow : Hollow (before ++ after))
    (exports : Export word) (named : Name name) (means : Means known text value) :
    splitEntry (word ++ name ++ before ++ '=' :: (after ++ text)) =
      some (String.ofList name, text) := by
  have hbefore : Hollow before := fun c hc => hollow c (List.mem_append_left _ hc)
  have hafter : Hollow after := fun c hc => hollow c (List.mem_append_right _ hc)
  have hread : readName (name ++ (before ++ '=' :: (after ++ text))) =
      some (String.ofList name, '=' :: (after ++ text)) := by
    rw [readName_name named (not_isKeyChar_of_hollow hbefore ?_), trimStart_append hbefore.white]
    · exact fun c hc => Option.some.inj hc ▸ by decide
    · exact fun c hc => Option.some.inj hc ▸ by decide
  have hsign : afterEquals ('=' :: (after ++ text)) = some (after ++ text) := rfl
  have hvalue : trimStart (after ++ text) = text := trimStart_append hafter.white means.solid
  cases exports with
  | none =>
    simp only [List.nil_append, List.append_assoc, splitEntry, hread, Option.bind_eq_bind,
      Option.bind_some, hsign, hvalue]
  | @word gap filled hgap =>
    obtain ⟨c, more, hname⟩ := List.exists_cons_of_ne_nil named.filled
    have hc : isKeyChar c = true := named.plain c (hname ▸ List.mem_cons_self)
    have hopens : (name ++ (before ++ '=' :: (after ++ text))).head? = some c := by
      rw [hname]
      rfl
    have hexport := readName_export hgap filled hopens hc
    simp only [List.append_assoc] at hexport ⊢
    simp only [splitEntry, hexport, Option.bind_eq_bind, Option.bind_some,
      afterEquals_eq_none hopens hc, if_true, hread, hsign, hvalue]

/-- An entry that begins like a name, behind white space, is neither empty nor a comment. -/
theorem assignment?_of_key {known : String → Option String} {c : Char}
    (hcore : trimStart (trimEnd cs) = entry) (opens : entry.head? = some c)
    (key : isKeyChar c = true) :
    assignment? known cs = (splitEntry entry).bind fun parts =>
      (if parts.2.isEmpty || parts.2.head? = some '#' then some ""
        else readValue known parts.2).bind fun value => some (some (parts.1, value)) := by
  have hskip : (entry.isEmpty || decide (entry.head? = some '#')) = false := by
    have hhash : c ≠ '#' := (calm_iff.1 (calm_of_isKeyChar key).1).2.1
    cases entry with
    | nil => exact nomatch opens
    | cons d more => simpa using (Option.some.inj opens ▸ hhash : d ≠ '#')
  rw [assignment?, hcore, hskip, if_neg Bool.false_ne_true]
  refine congrArg (splitEntry entry).bind (funext fun parts => ?_)
  dsimp only
  split <;> rfl

/-- The text of a value is read as what it means, also where there is none. -/
theorem readValue_of_means (means : Means known text value) (hash : text.head? ≠ some '#') :
    (if text.isEmpty || text.head? = some '#' then some "" else readValue known text) =
      some (String.ofList value) := by
  rw [← readValue_means means]
  cases text with
  | nil => rfl
  | cons c cs => rw [if_neg (by simpa using hash)]

/-- What ends an entry is the end of its value, or the equals sign. -/
theorem solid_getLast? {front after : List Char} (ends : ∀ c ∈ text.getLast?, isWhite c = false)
    (close : text = [] → after = []) :
    ∀ c ∈ (front ++ '=' :: (after ++ text)).getLast?, isWhite c = false := by
  intro c hc
  by_cases htext : text = []
  · rw [htext, close htext, List.append_nil, List.getLast?_concat] at hc
    exact Option.some.inj hc ▸ by decide
  · refine ends c ?_
    rwa [List.getLast?_append_of_ne_nil _ (List.cons_ne_nil _ _), ← List.cons_append,
      List.getLast?_append_of_ne_nil _ htext] at hc

/-- An entry is read as what it assigns, whatever white space stands behind it. -/
theorem assignment?_assigns (h : Assigns known entry a) (white : ∀ c ∈ ws, isWhite c = true) :
    assignment? known (entry ++ ws) = some (some a) := by
  cases h with
  | @intro lead word name before after text value hollow exports named means hash ends close =>
    have hlead : Hollow lead := fun c hc => hollow c (by simp [hc])
    have hrest : Hollow (before ++ after) := fun c hc =>
      hollow c (by rw [List.append_assoc]; exact List.mem_append_right _ hc)
    obtain ⟨c, more, hopens, hc⟩ := exports.opens named
    have hhead : (word ++ name ++ before ++ '=' :: (after ++ text)).head? = some c := by
      rw [List.append_assoc, hopens]
      rfl
    have hcore :
        trimStart (trimEnd (lead ++ word ++ name ++ before ++ '=' :: (after ++ text) ++ ws)) =
          word ++ name ++ before ++ '=' :: (after ++ text) := by
      rw [trimEnd_append white, trimEnd_of_solid (solid_getLast? ends close)]
      simp only [List.append_assoc] at hhead ⊢
      refine trimStart_append hlead.white ?_
      rw [hhead]
      exact fun d hd => Option.some.inj hd ▸ (calm_of_isKeyChar hc).2
    rw [assignment?_of_key hcore hhead hc, splitEntry_assigns hrest exports named means,
      Option.bind_some, readValue_of_means means hash, Option.bind_some]

theorem crosses_assigns (h : Assigns known entry a) : ∃ pre rest, entry = pre ++ rest ∧
    Scan.plain.Crosses pre .plain ∧ '\n' ∉ pre ∧ Begins pre ∧ Scan.plain.Crosses rest .plain := by
  cases h with
  | @intro lead word name before after text value hollow exports named means hash ends close =>
    obtain ⟨c, more, hopens, hc⟩ := exports.opens named
    have hcalm : ∀ d ∈ lead ++ word ++ name ++ before, Calm d := by
      simp only [List.forall_mem_append]
      exact ⟨⟨⟨Hollow.calm fun d hd => hollow d (by simp [hd]), exports.calm⟩,
        fun d hd => (calm_of_isKeyChar (named.plain d hd)).1⟩,
        Hollow.calm fun d hd => hollow d (by simp [hd])⟩
    refine ⟨lead ++ word ++ name ++ before ++ ['='], after ++ text, by simp, ?_, ?_, ?_, ?_⟩
    · obtain ⟨s, quiet, hcross⟩ := crosses_calm hcalm (.inl rfl)
      exact hcross.append (quiet.crosses_solid (by unfold Calm; decide) (by decide))
    · intro hmem
      rcases List.mem_append.1 hmem with hmem | hmem
      · exact (calm_iff.1 (hcalm _ hmem)).1 rfl
      · exact absurd hmem (by decide)
    · refine ⟨lead, c, more ++ before ++ ['='], ?_, fun d hd => ?_, (calm_of_isKeyChar hc).2, ?_⟩
      · simp only [List.append_assoc]
        rw [← List.append_assoc word, hopens]
        simp
      · exact Hollow.white (fun e he => hollow e (by simp [he])) d hd
      · exact (calm_iff.1 (calm_of_isKeyChar hc).1).2.1
    · by_cases htext : text = []
      · rw [htext, close htext]
        exact .nil
      · have hafter : Hollow after := fun d hd => hollow d (by simp [hd])
        obtain ⟨s, quiet, hcross⟩ := crosses_calm hafter.calm (.inl rfl)
        exact hcross.append (quiet.crosses_means means htext hash)

end

theorem assignment?_dropLineEnd (known : String → Option String) (cs : List Char) :
    assignment? known (dropLineEnd cs) = assignment? known cs := by
  rw [assignment?, assignment?, trimEnd_dropLineEnd]

theorem assignment?_hollow (known : String → Option String) {gap : List Char}
    (white : ∀ c ∈ gap, isWhite c = true) : assignment? known gap = some none := by
  have hend := trimEnd_append white []
  rw [List.nil_append] at hend
  rw [assignment?, hend]
  rfl

theorem assignment?_stray (known : String → Option String) {word ws : List Char}
    (filled : word ≠ []) (plain : ∀ c ∈ word, isKeyChar c = true)
    (white : ∀ c ∈ ws, isWhite c = true) : assignment? known (word ++ ws) = none := by
  have hsolid : ∀ c ∈ word, isWhite c = false := fun c hc => (calm_of_isKeyChar (plain c hc)).2
  have hword : trimStart (trimEnd (word ++ ws)) = word := by
    rw [trimEnd_append white, trimEnd_of_solid fun c hc => hsolid c (List.mem_of_getLast? hc)]
    exact trimStart_of_solid fun c hc => hsolid c (List.mem_of_head? hc)
  have hread : readName word = none ∨ ∃ name, readName word = some (name, []) := by
    obtain ⟨c, more, rfl⟩ := List.exists_cons_of_ne_nil filled
    have htake : (c :: more).takeWhile isKeyChar = c :: more := List.takeWhile_eq_self_iff.2 plain
    have hdrop : (c :: more).dropWhile isKeyChar = [] := List.dropWhile_eq_nil_iff.2 plain
    rw [readName, htake, hdrop]
    dsimp only
    split
    · exact .inl rfl
    · exact .inr ⟨_, rfl⟩
  have hsplit : splitEntry word = none := by
    have hnone : readName [] = none := rfl
    rcases hread with hread | ⟨name, hread⟩
    · rw [splitEntry, hread]
      rfl
    · rw [splitEntry, hread]
      simp [afterEquals, hnone]
  obtain ⟨c, more, rfl⟩ := List.exists_cons_of_ne_nil filled
  rw [assignment?_of_key hword rfl (plain c List.mem_cons_self), hsplit, Option.bind_none]

theorem entriesFrom_blank {gap : List Char} (hollow : Hollow gap) (rest : List Char) :
    entriesFrom [] .plain (linesOf (gap ++ '\n' :: rest)) =
      some (dropLineEnd (gap ++ ['\n'])) :: entriesFrom [] .plain (linesOf rest) := by
  obtain ⟨s, quiet, hcross⟩ := crosses_calm hollow.calm (.inl rfl)
  have hscan := scanLine_append hcross ['\n']
  rw [scanLine_lineFeed quiet] at hscan
  have hhead : (trimStart ([] ++ (gap ++ ['\n']))).head? ≠ some '#' := by
    rw [List.nil_append, trimStart, List.dropWhile_append_of_pos hollow.white]
    decide
  have hone : '\n' ∉ gap := fun hmem => (calm_iff.1 (hollow.calm _ hmem)).1 rfl
  rw [linesOf_line hone, entriesFrom_line hhead hscan, if_pos rfl, List.nil_append]

theorem entriesFrom_comment {gap text : List Char} (hollow : Hollow gap) (one : '\n' ∉ text)
    (rest : List Char) :
    entriesFrom [] .plain (linesOf (gap ++ '#' :: (text ++ '\n' :: rest))) =
      some [] :: entriesFrom [] .plain (linesOf rest) := by
  have hone : '\n' ∉ gap ++ '#' :: text := by
    have hgap : '\n' ∉ gap := fun hmem => (calm_iff.1 (hollow.calm _ hmem)).1 rfl
    simp [hgap, one]
  have hline := linesOf_line hone rest
  simp only [List.append_assoc, List.cons_append] at hline
  rw [hline, entriesFrom, if_pos]
  rw [List.nil_append, trimStart_append hollow.white]
  · rfl
  · exact fun c hc => Option.some.inj hc ▸ by decide

/-- An entry that assigns something comes first, however it ends. `gap` is what is kept of the text
behind it. -/
theorem assignments_entry {env : List (String × String)} {gap last rest : List Char} {s : Scan}
    {keep : List Char → List Char} (assigns : Assigns (EnvFile.valueOf env) entry a)
    (hgap : Scan.plain.Crosses gap s) (ends : Ends s last rest keep)
    (reads : assignment? (EnvFile.valueOf env) (keep (entry ++ gap)) = some (some a)) :
    assignments env (entriesFrom [] .plain (linesOf (entry ++ gap ++ last))) =
      a :: assignments (env ++ [a]) (entriesFrom [] .plain (linesOf rest)) := by
  obtain ⟨pre, text, rfl, hpre, one, begins, htext⟩ := crosses_assigns assigns
  rw [List.append_assoc pre] at reads ⊢
  rw [entriesFrom_entry ends hpre one begins (htext.append hgap), assignments, reads]

theorem crosses_gap {blank : Char} (gap : isGap blank = true) :
    Scan.plain.Crosses [blank] .blank := by
  have hstep := Scan.Quiet.step_gap gap
  refine .cons ?_ (fun hline => ?_) ?_
  · rw [hstep]
    exact Scan.noConfusion
  · exact absurd (hline ▸ gap) (by decide)
  · exact hstep ▸ .nil

/-- Nothing is assigned from a word without an equals sign on. -/
theorem assignments_stray (env : List (String × String)) {word : List Char} (filled : word ≠ [])
    (plain : ∀ c ∈ word, isKeyChar c = true) (rest : List Char) :
    assignments env (entriesFrom [] .plain (linesOf (word ++ '\n' :: rest))) = [] := by
  have hnone : assignment? (EnvFile.valueOf env) (word ++ ['\n']) = none :=
    assignment?_stray _ filled plain white_lineFeed
  have hcalm : ∀ c ∈ word, Calm c ∧ isWhite c = false :=
    fun c hc => calm_of_isKeyChar (plain c hc)
  have hone : '\n' ∉ word := fun hmem => (calm_iff.1 (hcalm _ hmem).1).1 rfl
  have hbegins : Begins word := by
    obtain ⟨c, more, rfl⟩ := List.exists_cons_of_ne_nil filled
    obtain ⟨hc, hsolid⟩ := hcalm c List.mem_cons_self
    exact ⟨[], c, more, rfl, List.forall_mem_nil _, hsolid, (calm_iff.1 hc).2.1⟩
  have hentry := entriesFrom_entry (ends_lineFeed (.inl rfl) rest) (crosses_solid hcalm) hone
    hbegins .nil
  rw [List.append_nil] at hentry
  rw [hentry, assignments, assignment?_dropLineEnd, hnone]

/-- A file of variables assigns what it says. -/
theorem assignments_eq {env as : List (String × String)} {cs : List Char} (h : Says env cs as) :
    assignments env (entriesFrom [] .plain (linesOf cs)) = as := by
  induction h with
  | done => rfl
  | @blank env as gap rest hollow _ ih =>
    have hnone : assignment? (EnvFile.valueOf env) (gap ++ ['\n']) = some none :=
      assignment?_hollow _ (List.forall_mem_append.2 ⟨hollow.white, white_lineFeed⟩)
    rw [entriesFrom_blank hollow, assignments, assignment?_dropLineEnd, hnone]
    exact ih
  | @comment env as gap text rest hollow one _ ih =>
    have hnone : assignment? (EnvFile.valueOf env) [] = some none :=
      assignment?_hollow _ (List.forall_mem_nil _)
    rw [entriesFrom_comment hollow one, assignments, hnone]
    exact ih
  | @assign env as a entry gap rest assigns hollow _ ih =>
    obtain ⟨s, quiet, hgap⟩ := crosses_calm hollow.calm (.inl rfl)
    have hreads := assignment?_assigns assigns
      (List.forall_mem_append.2 ⟨hollow.white, white_lineFeed⟩)
    rw [← List.append_assoc, ← assignment?_dropLineEnd] at hreads
    rw [assignments_entry assigns hgap (ends_lineFeed quiet rest) hreads, ih]
  | @remark env as a entry text rest blank assigns gap one _ ih =>
    have hreads := assignment?_assigns assigns (List.forall_mem_singleton.2 (isWhite_of_isGap gap))
    rw [assignments_entry assigns (crosses_gap gap) (ends_remark one rest) hreads, ih]
  | @last env a entry assigns =>
    have hreads := assignment?_assigns assigns (List.forall_mem_nil _)
    rw [← assignment?_dropLineEnd] at hreads
    have hentry := assignments_entry assigns .nil ends_last hreads
    rw [List.append_nil, List.append_nil] at hentry
    exact hentry
  | stray filled plain => exact assignments_stray _ filled plain _

/-! ### The byte order mark -/

theorem head?_append_ne {xs ys : List Char} {d : Char} (hxs : ∀ c ∈ xs, c ≠ d)
    (hys : ys.head? ≠ some d) : (xs ++ ys).head? ≠ some d := by
  cases xs with
  | nil => exact hys
  | cons x xs => exact fun heq => hxs x List.mem_cons_self (Option.some.inj heq)

theorem head?_cons_ne {c d : Char} (h : c ≠ d) (cs : List Char) : (c :: cs).head? ≠ some d :=
  fun heq => h (Option.some.inj heq)

theorem Hollow.ne_mark {gap : List Char} (h : Hollow gap) : ∀ c ∈ gap, c ≠ '\uFEFF' := by
  intro c hc
  rcases h c hc with rfl | rfl | rfl <;> decide

theorem ne_mark_of_isKeyChar {c : Char} (h : isKeyChar c = true) : c ≠ '\uFEFF' := by
  rintro rfl
  revert h
  decide

theorem Assigns.head?_ne {known : String → Option String} {entry : List Char} {a : String × String}
    (h : Assigns known entry a) (rest : List Char) : (entry ++ rest).head? ≠ some '\uFEFF' := by
  cases h with
  | @intro lead word name before after text value hollow exports named means hash ends close =>
    obtain ⟨c, more, hopens, hc⟩ := exports.opens named
    have hlead : Hollow lead := fun d hd => hollow d (by simp [hd])
    simp only [List.append_assoc]
    refine head?_append_ne hlead.ne_mark ?_
    rw [← List.append_assoc word, hopens]
    exact head?_cons_ne (ne_mark_of_isKeyChar hc) _

theorem Says.head?_ne {env as : List (String × String)} {cs : List Char} (h : Says env cs as) :
    cs.head? ≠ some '\uFEFF' := by
  cases h with
  | done => exact nofun
  | blank hollow _ => exact head?_append_ne hollow.ne_mark (head?_cons_ne (by decide) _)
  | comment hollow _ _ => exact head?_append_ne hollow.ne_mark (head?_cons_ne (by decide) _)
  | assign assigns _ _ => exact List.append_assoc .. ▸ assigns.head?_ne _
  | remark assigns _ _ _ => exact List.append_assoc .. ▸ assigns.head?_ne _
  | last assigns =>
    have hhead := assigns.head?_ne []
    rwa [List.append_nil] at hhead
  | stray _ plain =>
    exact head?_append_ne (fun c hc => ne_mark_of_isKeyChar (plain c hc))
      (head?_cons_ne (by decide) _)

/-- A file of variables assigns what its text says. A byte order mark in front of it is no part of
the text. -/
theorem assigned_eq {env as : List (String × String)} {content : String} {cs : List Char}
    (h : Says env cs as) (text : content.toList = cs ∨ content.toList = '\uFEFF' :: cs) :
    assigned env content = as := by
  have hcs : (if content.toList.head? = some '\uFEFF' then content.toList.drop 1
      else content.toList) = cs := by
    rcases text with htext | htext
    · rw [htext, if_neg h.head?_ne]
    · rw [htext]
      rfl
  rw [assigned, hcs]
  exact assignments_eq h

end Agora.Settings.EnvFile
