import Agora.Proofs.Layer
import Mathlib.Data.List.Infix

/-!
Names of variables. A name that is, in any case, the program's prefix and two identifiers between
double underscores has a key with a point between the two. Underscores at the end of the first or
at the start of the second identifier may leave a key that is no path; it sets nothing.
-/

namespace Agora

namespace Text

/-! ### Lower case of ASCII -/

theorem lowerFrom_of_ascii {cs : List Char} (h : ∀ c ∈ cs, c.toNat < 0x80) (joined : Bool) :
    lowerFrom joined cs = cs.map Char.toLower := by
  induction cs generalizing joined with
  | nil => rfl
  | cons c cs ih =>
    obtain ⟨hc, hcs⟩ := List.forall_mem_cons.1 h
    have hdot : c ≠ '\u0130' := by rintro rfl; revert hc; decide
    have hsigma : c ≠ '\u03A3' := by rintro rfl; revert hc; decide
    rw [lowerFrom, ih hcs, if_neg hdot]
    simp only [hsigma, decide_false, Bool.false_and, Bool.false_eq_true, if_false, lowerChar, hc,
      if_true, List.singleton_append, List.map_cons]

theorem toList_lower {s : String} (h : ∀ c ∈ s.toList, c.toNat < 0x80) :
    (lower s).toList = s.toList.map Char.toLower := by
  rw [lower, String.toList_ofList, lowerFrom_of_ascii h]

theorem stripStart?_append [DecidableEq α] (ps xs : List α) :
    stripStart? ps (ps ++ xs) = some xs := by
  induction ps with
  | nil => rfl
  | cons p ps ih => rw [List.cons_append, stripStart?, if_pos rfl, ih]

end Text

namespace Settings

open Text Value

/-! ### Identifiers -/

/-- No two underscores stand together. -/
def Single (cs : List Char) : Prop := ¬ ['_', '_'] <:+: cs

theorem Single.of_start {xs ys : List Char} (h : Single ys) (hpre : xs <+: ys) : Single xs :=
  fun hmid => h (hmid.trans hpre.isInfix)

theorem Single.of_cons {c : Char} {cs : List Char} (h : Single (c :: cs)) : Single cs :=
  fun hmid => h (hmid.trans (List.suffix_cons c cs).isInfix)

theorem Single.head_ne {cs : List Char} (h : Single ('_' :: cs)) : cs.head? ≠ some '_' := by
  intro hhead
  obtain ⟨ds, rfl⟩ := List.head?_eq_some_iff.1 hhead
  exact h ⟨[], ds, rfl⟩

/-- A name or a key of the program's own kind: not empty, of characters for names of paths, and
without two underscores together. -/
structure Identifier (s : String) : Prop where
  filled : s.toList ≠ []
  chars : ∀ c ∈ s.toList, isNameChar c = true
  single : Single s.toList

/-! ### Points for double underscores -/

theorem pointed_cons {c : Char} {cs : List Char} (h : c = '_' → cs.head? ≠ some '_') :
    pointed (c :: cs) = c :: pointed cs := by
  refine pointed.eq_2 c cs fun rest hc hcs => h hc ?_
  rw [hcs]
  rfl

theorem pointed_of_single {cs : List Char} (h : Single cs) : pointed cs = cs := by
  induction cs with
  | nil => rfl
  | cons c cs ih =>
    rw [pointed_cons, ih h.of_cons]
    rintro rfl
    exact h.head_ne

/-- Up to a character that is no underscore nothing depends on what follows. -/
theorem pointed_append {cs : List Char} (h : Single cs) (hlast : cs.getLast? ≠ some '_')
    (rest : List Char) : pointed (cs ++ rest) = cs ++ pointed rest := by
  induction cs with
  | nil => rfl
  | cons c cs ih =>
    have hnext : c = '_' → (cs ++ rest).head? ≠ some '_' := by
      rintro rfl
      cases cs with
      | nil => exact absurd rfl hlast
      | cons d ds => exact h.head_ne
    rw [List.cons_append, pointed_cons hnext, List.cons_append, ih h.of_cons]
    cases cs with
    | nil => exact Option.some_ne_none _ ∘ Eq.symm
    | cons d ds => exact hlast

/-- Two identifiers between which a double underscore stands are parted at a point: before it is
the first one, perhaps without an underscore at its end, and after it the second one, perhaps with
that underscore before it, or else another point. -/
theorem exists_pointed {g n : List Char} (hg : Single g) (hn : Single n) :
    ∃ g' m, pointed (g ++ '_' :: '_' :: n) = g' ++ '.' :: m ∧ g' <+: g ∧
      (m = n ∨ m = '_' :: n ∨ m.head? = some '.') := by
  by_cases hlast : g.getLast? = some '_'
  · obtain ⟨g', rfl⟩ := List.getLast?_eq_some_iff.1 hlast
    have hpre : g' <+: g' ++ ['_'] := List.prefix_append g' ['_']
    have hlast' : g'.getLast? ≠ some '_' := by
      intro hlast'
      obtain ⟨g'', rfl⟩ := List.getLast?_eq_some_iff.1 hlast'
      exact hg ⟨g'', [], by simp⟩
    refine ⟨g', pointed ('_' :: n), ?_, hpre, ?_⟩
    · rw [List.append_assoc]
      exact pointed_append (hg.of_start hpre) hlast' _
    · by_cases hhead : n.head? = some '_'
      · obtain ⟨n', rfl⟩ := List.head?_eq_some_iff.1 hhead
        exact .inr (.inr rfl)
      · rw [pointed_cons fun _ => hhead, pointed_of_single hn]
        exact .inr (.inl rfl)
  · refine ⟨g, n, ?_, List.prefix_rfl, .inl rfl⟩
    rw [pointed_append hg hlast]
    exact congrArg (fun cs => g ++ '.' :: cs) (pointed_of_single hn)

/-! ### Paths -/

theorem not_isNameChar_point : isNameChar '.' = false := by decide

theorem takeName_append {cs rest : List Char} (hne : cs ≠ []) (h : ∀ c ∈ cs, isNameChar c = true)
    (hrest : ∀ c ∈ rest.head?, isNameChar c = false) :
    takeName (cs ++ rest) = some (String.ofList cs, rest) := by
  have htake : (cs ++ rest).takeWhile isNameChar = cs := by
    rw [List.takeWhile_append_of_pos h]
    cases rest with
    | nil => exact List.append_nil cs
    | cons d ds => rw [List.takeWhile_cons_of_neg (by simp [hrest d rfl]), List.append_nil]
  have hdrop : (cs ++ rest).dropWhile isNameChar = rest := by
    rw [List.dropWhile_append_of_pos h]
    cases rest with
    | nil => rfl
    | cons d ds => rw [List.dropWhile_cons_of_neg (by simp [hrest d rfl])]
  rw [takeName, htake, hdrop]
  exact if_neg (by simpa using hne)

theorem takeName_of_head {c : Char} {cs : List Char} (h : isNameChar c = false) :
    takeName (c :: cs) = none := by
  rw [takeName, List.takeWhile_cons_of_neg (by simp [h])]
  rfl

/-- A key with one point between names leads to an entry below another; with a name missing it
leads nowhere. -/
theorem leads_point {g m : List Char} (hg : ∀ c ∈ g, isNameChar c = true)
    (hm : (m ≠ [] ∧ ∀ c ∈ m, isNameChar c = true) ∨ m.head? = some '.') :
    Setting.Leads (String.ofList (g ++ '.' :: m)) (pathOf (String.ofList (g ++ '.' :: m))) := by
  have hstray (h : readPath? (String.ofList (g ++ '.' :: m)) = none) :
      Setting.Leads (String.ofList (g ++ '.' :: m)) (pathOf (String.ofList (g ++ '.' :: m))) := by
    rw [pathOf, h]
    exact .stray (by simp)
  by_cases hne : g = []
  · subst hne
    apply hstray
    rw [readPath?, String.toList_ofList]
    exact congrArg (· >>= _) (takeName_of_head not_isNameChar_point)
  · have hname : takeName (g ++ '.' :: m) = some (String.ofList g, '.' :: m) :=
      takeName_append hne hg (by rintro c ⟨⟩; exact not_isNameChar_point)
    rcases hm with ⟨hfilled, hm⟩ | hhead
    · have hsecond : takeName (m ++ []) = some (String.ofList m, []) :=
        takeName_append hfilled hm nofun
      rw [List.append_nil] at hsecond
      have hpath : readPath? (String.ofList (g ++ '.' :: m)) =
          some [.entry (String.ofList g), .entry (String.ofList m)] := by
        simp [readPath?, hname, readParts, hsecond]
      have hkey : String.ofList (g ++ '.' :: m) = String.ofList g ++ "." ++ String.ofList m := by
        rw [← String.toList_inj]
        simp
      rw [pathOf, hpath, hkey]
      exact .entry _ _
    · obtain ⟨m, rfl⟩ := List.head?_eq_some_iff.1 hhead
      apply hstray
      simp [readPath?, hname, readParts, takeName_of_head not_isNameChar_point]

/-- A key without points and brackets is a name. -/
theorem pathOf_of_unmarked {key : String} (hpoint : '.' ∉ key.toList)
    (hbracket : '[' ∉ key.toList) : pathOf key = [.entry key] := by
  have hpath : ∀ path, readPath? key = some path → path = [.entry key] := by
    intro path h
    simp only [readPath?, takeName] at h
    split at h
    · cases h
    · simp only [Option.bind_eq_bind, Option.bind_some] at h
      cases hrest : key.toList.dropWhile isNameChar with
      | nil =>
        have hall : key.toList.takeWhile isNameChar = key.toList := by
          have := List.takeWhile_append_dropWhile (p := isNameChar) (l := key.toList)
          rwa [hrest, List.append_nil] at this
        rw [hrest, hall, String.ofList_toList] at h
        cases h
        rfl
      | cons c cs =>
        have hmem : c ∈ key.toList :=
          (List.dropWhile_sublist isNameChar).subset (hrest ▸ List.mem_cons_self)
        have hc : c ≠ '.' := by rintro rfl; exact hpoint hmem
        have hc' : c ≠ '[' := by rintro rfl; exact hbracket hmem
        rw [hrest, List.length_cons, readParts, if_neg hc, if_neg hc'] at h
        cases h
  cases h : readPath? key with
  | none => rw [pathOf, h]; rfl
  | some path => rw [pathOf, h, hpath path h]; rfl

/-! ### Names of variables -/

theorem isNameChar_toLower {c : Char} (h : isNameChar c = true) :
    c.toNat < 0x80 ∧ isNameChar c.toLower = true ∧ (c.toLower = '_' → c = '_') := by
  have hascii : c.toNat < 0x80 := by
    simp only [isNameChar, Decimal.isDigit, Bool.or_eq_true, Bool.and_eq_true, decide_eq_true_eq,
      Char.le_def, UInt32.le_iff_toNat_le] at h
    rcases h with (((⟨_, h⟩ | ⟨_, h⟩) | ⟨_, h⟩) | rfl) | rfl
    all_goals first | decide | exact Nat.lt_of_le_of_lt h (by decide)
  have hall : ∀ n : Fin 0x80, isNameChar (Char.ofNat n) = true →
      isNameChar (Char.ofNat n).toLower = true ∧
        ((Char.ofNat n).toLower = '_' → Char.ofNat n = '_') := by decide
  have hc := hall ⟨c.toNat, hascii⟩
  rw [Char.ofNat_toNat] at hc
  exact ⟨hascii, hc h⟩

theorem Single.toLower {cs : List Char} (h : Single cs) (hcs : ∀ c ∈ cs, isNameChar c = true) :
    Single (cs.map Char.toLower) := by
  rintro ⟨before, after, heq⟩
  obtain ⟨xs, ys, rfl, hxs, -⟩ := List.map_eq_append_iff.1 heq.symm
  obtain ⟨xs, zs, rfl, -, hzs⟩ := List.map_eq_append_iff.1 hxs
  obtain ⟨a, zs, rfl, ha, hzs⟩ := List.map_eq_cons_iff.1 hzs
  obtain ⟨b, zs, rfl, hb, hzs⟩ := List.map_eq_cons_iff.1 hzs
  obtain rfl := List.map_eq_nil_iff.1 hzs
  obtain rfl := (isNameChar_toLower (hcs a (by simp))).2.2 ha
  obtain rfl := (isNameChar_toLower (hcs b (by simp))).2.2 hb
  exact h ⟨xs, ys, rfl⟩

theorem Identifier.isNameChar_of_mem {s : String} (h : Identifier s) {c : Char}
    (hc : c ∈ s.toList.map Char.toLower) : isNameChar c = true := by
  obtain ⟨d, hd, rfl⟩ := List.mem_map.1 hc
  exact (isNameChar_toLower (h.chars d hd)).2.1

/-- The name of the variable for a section and a key. -/
def variableName (group key : String) : String :=
  variablePrefix ++ separator ++ group ++ separator ++ key

/-- A variable that is named, in any case, for a section and a key that are identifiers is one of
the program's, and sets one setting at most. -/
theorem shallow_of_identifiers {name g n : String} (hg : Identifier g) (hn : Identifier n)
    (h : lower name = lower (variableName g n)) :
    ∃ key, keyOf? name = some key ∧ Setting.Shallow key := by
  have hbegin : variablePrefix.toList.all isNameChar = true := by decide
  have hseparator : separator.toList.all isNameChar = true := by decide
  have hascii : ∀ c ∈ (variableName g n).toList, c.toNat < 0x80 := by
    intro c hc
    simp only [variableName, String.toList_append, List.mem_append] at hc
    apply And.left (isNameChar_toLower _)
    rcases hc with (((hc | hc) | hc) | hc) | hc
    · exact List.all_eq_true.1 hbegin c hc
    · exact List.all_eq_true.1 hseparator c hc
    · exact hg.chars c hc
    · exact List.all_eq_true.1 hseparator c hc
    · exact hn.chars c hc
  have hbegins : ∀ c ∈ (variablePrefix ++ separator).toList, c.toNat < 0x80 := by
    intro c hc
    rw [String.toList_append, List.mem_append] at hc
    apply And.left (isNameChar_toLower _)
    rcases hc with hc | hc
    · exact List.all_eq_true.1 hbegin c hc
    · exact List.all_eq_true.1 hseparator c hc
  have hname : (lower name).toList = (lower (variablePrefix ++ separator)).toList ++
      (g.toList.map Char.toLower ++ '_' :: '_' :: n.toList.map Char.toLower) := by
    rw [h, toList_lower hascii, toList_lower hbegins]
    simp [variableName, separator]
  obtain ⟨g', m, hpointed, hpre, hm⟩ :=
    exists_pointed (hg.single.toLower hg.chars) (hn.single.toLower hn.chars)
  refine ⟨String.ofList (g' ++ '.' :: m), ?_, leads_point ?_ ?_⟩
  · rw [keyOf?, hname, stripStart?_append, Option.map_some, hpointed]
  · exact fun c hc => hg.isNameChar_of_mem (hpre.subset hc)
  · have hfilled : n.toList.map Char.toLower ≠ [] := mt List.map_eq_nil_iff.1 hn.filled
    rcases hm with rfl | rfl | hhead
    · exact .inl ⟨hfilled, fun c hc => hn.isNameChar_of_mem hc⟩
    · refine .inl ⟨List.cons_ne_nil _ _, List.forall_mem_cons.2 ⟨by decide, ?_⟩⟩
      exact fun c hc => hn.isNameChar_of_mem hc
    · exact .inr hhead

end Settings

end Agora
