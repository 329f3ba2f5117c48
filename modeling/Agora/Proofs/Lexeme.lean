import Agora.Json.Lexeme
import Agora.Proofs.Digits
import Agora.Proofs.Grammar

/-!
The lexemes of a text one after the other, and the lexemes that spell texts, words and numerals.
Each lexeme leaves less of the text than there was, so the bound on their number never shows. What
spells a text, a word or a numeral is read as one lexeme with its value, whatever follows; only a
numeral must not be followed by something that goes on with it.
-/

namespace Agora.Json

open Agora.Text Agora.Decimal

/-! ### One lexeme after the other -/

/-- The lexemes of what is left of a text, `index` bytes from its start. -/
def lexemesAt (index : Nat) (cs : List Char) : List Lexeme := lexFrom cs.length index cs

theorem length_scanText_le (start : Nat) (s : Scan) (cs : List Char) :
    (scanText start s cs).2.length ≤ cs.length := by
  induction cs generalizing s with
  | nil => exact Nat.le_refl 0
  | cons c cs ih =>
    rw [scanText]
    split
    · exact Nat.le_succ_of_le (ih _)
    · exact Nat.le_succ _
    · exact Nat.le_succ _

theorem length_scanWord_le (start : Nat) (j : Json) (word : List Char) (index : Nat)
    (cs : List Char) : (scanWord start j word index cs).2.length ≤ cs.length := by
  induction word generalizing index cs with
  | nil => exact Nat.le_refl _
  | cons w ws ih =>
    cases cs with
    | nil => exact Nat.le_refl 0
    | cons c cs =>
      rw [scanWord]
      split
      · exact Nat.le_succ_of_le (ih _ _)
      · exact Nat.le_succ _

theorem length_of_scanExponent {cs rest : List Char} {index index' : Nat}
    {e : Option (Bool × List Char)} (h : scanExponent cs index = .ok (e, rest, index')) :
    rest.length ≤ cs.length := by
  unfold scanExponent at h
  grind

theorem length_of_scanFraction {cs rest : List Char} {index index' : Nat}
    {f : Option (List Char)} (h : scanFraction cs index = .ok (f, rest, index')) :
    rest.length ≤ cs.length := by
  unfold scanFraction at h
  grind

theorem length_of_scanWhole {cs rest ds : List Char} {index index' : Nat}
    (h : scanWhole cs index = .ok (ds, rest, index')) : rest.length < cs.length := by
  cases cs with
  | nil => exact nomatch h
  | cons c cs =>
    rw [scanWhole] at h
    split at h
    · exact nomatch h
    · rename_i hsome
      have hpos : 0 < ((c :: cs).takeWhile isDigit).length :=
        List.length_pos_iff.2 (by simpa using hsome)
      grind

theorem length_of_scanNumeral {cs rest : List Char} {index index' : Nat} {n : Numeral}
    (h : scanNumeral cs index = .ok (n, rest, index')) : rest.length < cs.length := by
  unfold scanNumeral at h
  split at h
  rename_i negative unsigned start hsign
  have hunsigned : unsigned.length ≤ cs.length := by grind
  simp only [bind, Except.bind] at h
  split at h
  · exact nomatch h
  rename_i whole hwhole
  split at h
  · exact nomatch h
  rename_i fraction hfraction
  split at h
  · exact nomatch h
  rename_i exponent hexponent
  cases h
  have h₁ := length_of_scanWhole hwhole
  have h₂ := length_of_scanFraction hfraction
  have h₃ := length_of_scanExponent hexponent
  omega

theorem length_lexNumeral_le (start : Nat) (c : Char) (cs : List Char) :
    (lexNumeral start (c :: cs)).2.length ≤ cs.length := by
  rw [lexNumeral]
  split
  · exact Nat.zero_le _
  · rename_i h
    exact Nat.le_of_lt_succ (length_of_scanNumeral h)

theorem length_lexOne_le (start : Nat) (c : Char) (cs : List Char) :
    (lexOne start c cs).2.length ≤ cs.length := by
  unfold lexOne
  split
  · exact Nat.le_refl _
  split
  · exact length_scanText_le _ _ _
  split
  · exact length_scanWord_le _ _ _ _ _
  split
  · exact length_scanWord_le _ _ _ _ _
  split
  · exact length_scanWord_le _ _ _ _ _
  split
  · exact length_lexNumeral_le _ _ _
  · exact Nat.le_refl _

/-- More fuel than characters makes no difference. -/
theorem lexFrom_eq_lexemesAt {fuel : Nat} {cs : List Char} (h : cs.length ≤ fuel) (index : Nat) :
    lexFrom fuel index cs = lexemesAt index cs := by
  -- a lexeme may take many characters, so the fuel that is left is compared with the fuel there was
  induction fuel using Nat.strongRecOn generalizing cs index with
  | ind fuel ih =>
    cases cs with
    | nil => cases fuel <;> rfl
    | cons c cs =>
      obtain ⟨fuel, rfl⟩ := Nat.exists_eq_add_one_of_ne_zero (Nat.ne_of_gt (Nat.lt_of_lt_of_le
        (Nat.succ_pos _) h))
      have hcs : cs.length ≤ fuel := Nat.le_of_succ_le_succ h
      have hrest := length_lexOne_le index c cs
      have heq {tail : List Char} (htail : tail.length ≤ cs.length) (i : Nat) :
          lexFrom fuel i tail = lexFrom cs.length i tail := by
        rw [ih fuel (Nat.lt_succ_self _) (Nat.le_trans htail hcs) i,
          ih cs.length (Nat.lt_succ_of_le hcs) htail i]
      rw [lexemesAt, List.length_cons, lexFrom, lexFrom, heq (Nat.le_refl _)]
      split
      · rfl
      · generalize hread : lexOne index c cs = read at hrest
        obtain ⟨l, rest⟩ := read
        dsimp only at hrest ⊢
        rw [heq hrest]

/-- A lexeme that is well formed, and the lexemes of what follows it. -/
theorem lexemesAt_cons {index : Nat} {c : Char} {cs rest : List Char} {l : Lexeme}
    (visible : isSpace c = false) (reads : lexOne index c cs = (l, rest))
    (formed : ∀ f i, l.kind ≠ .bad f i) :
    lexemesAt index (c :: cs) = l :: lexemesAt l.stop rest := by
  have hrest : rest.length ≤ cs.length := by
    have h := length_lexOne_le index c cs
    rwa [reads] at h
  rw [lexemesAt, List.length_cons, lexFrom, if_neg (by simp [visible]), reads]
  dsimp only
  split
  · rename_i f i hbad
    exact absurd hbad (formed f i)
  · rw [lexFrom_eq_lexemesAt hrest]

theorem lexemesAt_sign {c : Char} {s : Sign} (h : sign? c = some s) (index : Nat)
    (cs : List Char) :
    lexemesAt index (c :: cs) = ⟨.sign s, false, index, index + 1⟩ :: lexemesAt (index + 1) cs := by
  have hvisible : isSpace c = false := by
    unfold sign? at h
    unfold isSpace
    grind
  have hreads : lexOne index c cs = (⟨.sign s, false, index, index + 1⟩, cs) := by
    simp only [lexOne, h]
  exact lexemesAt_cons hvisible hreads nofun

/-- White space is passed over. -/
theorem lexemesAt_blank {gap : List Char} (blank : Blank gap) (index : Nat) (cs : List Char) :
    ∃ index', lexemesAt index (gap ++ cs) = lexemesAt index' cs := by
  induction gap generalizing index with
  | nil => exact ⟨index, rfl⟩
  | cons c gap ih =>
    obtain ⟨hc, hgap⟩ := List.forall_mem_cons.1 blank
    have hspace : isSpace c = true := by simpa [isSpace, or_assoc] using hc
    obtain ⟨index', hrest⟩ := ih hgap (index + 1)
    refine ⟨index', ?_⟩
    rw [← hrest, List.cons_append, lexemesAt, List.length_cons, lexFrom, if_pos hspace]
    rfl

/-! ### Quoted texts -/

/-- The text that a scan between two pieces comes to, if it reads these pieces and then a quote. -/
def Scan.result (s : Scan) (ps : List Piece) : Option (List Char) :=
  if s.flaw.isSome then none else (textBehind s.lead ps).map (s.text.reverse ++ ·)

/-- The characters `cs` take a scan between two pieces on by the piece `p`. -/
def Scan.Passes (s : Scan) (p : Piece) (cs : List Char) : Prop :=
  ∃ s' : Scan, s'.within = .plain ∧ (∀ ps, s'.result ps = s.result (p :: ps)) ∧
    ∀ start rest, scanText start s (cs ++ rest) = scanText start s' rest

theorem passes_plain {s : Scan} (between : s.within = .plain) {c : Char}
    (free : c ≠ '"' ∧ c ≠ '\\' ∧ ¬ c.toNat < 0x20) : s.Passes (.char c) [c] := by
  obtain ⟨within, lead, text, index, flaw⟩ := s
  obtain rfl : within = .plain := between
  cases lead with
  | none =>
    refine ⟨⟨.plain, none, c :: text, index + c.utf8Size, flaw⟩, rfl, fun ps => ?_, ?_⟩
    · cases flaw <;> simp [Scan.result, textBehind, Function.comp_def]
    · simp [scanText, Scan.step, Scan.plain, Scan.push, free]
  | some lead =>
    refine ⟨⟨.plain, none, c :: text, index + c.utf8Size,
      flaw.or (some (.hexEnd, index + 1))⟩, rfl, fun ps => ?_, ?_⟩
    · cases flaw <;> simp [Scan.result, textBehind]
    · simp [scanText, Scan.step, Scan.plain, Scan.push, Scan.flawed, free]

theorem shortEscape?_of_mem {letter c : Char} (known : (letter, c) ∈ shortEscapes) :
    letter ≠ 'u' ∧ shortEscape? letter = some c := by
  have hall : ∀ e ∈ shortEscapes, e.1 ≠ 'u' ∧ shortEscape? e.1 = some e.2 := by decide
  exact hall _ known

theorem passes_short {s : Scan} (between : s.within = .plain) {letter c : Char}
    (known : (letter, c) ∈ shortEscapes) : s.Passes (.char c) ['\\', letter] := by
  obtain ⟨hu, hshort⟩ := shortEscape?_of_mem known
  obtain ⟨within, lead, text, index, flaw⟩ := s
  obtain rfl : within = .plain := between
  have hslash : '\\'.utf8Size = 1 := by decide
  cases lead with
  | none =>
    refine ⟨⟨.plain, none, c :: text, index + 1 + letter.utf8Size, flaw⟩, rfl, fun ps => ?_, ?_⟩
    · cases flaw <;> simp [Scan.result, textBehind, Function.comp_def]
    · simp [scanText, Scan.step, Scan.plain, Scan.escape, Scan.push, hshort, hu, hslash]
  | some lead =>
    refine ⟨⟨.plain, none, c :: text, index + 1 + letter.utf8Size,
      flaw.or (some (.hexEnd, index + 1 + 1))⟩, rfl, fun ps => ?_, ?_⟩
    · cases flaw <;> simp [Scan.result, textBehind]
    · simp [scanText, Scan.step, Scan.plain, Scan.escape, Scan.push, Scan.flawed, hshort, hu,
        hslash]

/-- The four digits of an escape, after which its code point is complete. -/
theorem scanText_hex (start index : Nat) (lead : Option Nat) (text : List Char)
    (flaw : Option (Fault × Nat)) {n : Nat} {hex : List Char} (digits : Hex n hex)
    (cs : List Char) :
    scanText start ⟨.plain, lead, text, index, flaw⟩ ('\\' :: 'u' :: (hex ++ cs)) =
      scanText start ((⟨.plain, lead, text, index + 6, flaw⟩ : Scan).codePoint n) cs := by
  obtain ⟨a, b, c, d, hmap, rfl⟩ := digits
  obtain ⟨w, x, y, z, rfl⟩ : ∃ w x y z, hex = [w, x, y, z] :=
    List.length_eq_four.1 (by simpa using congrArg List.length hmap)
  have hslash : '\\'.utf8Size = 1 := by decide
  have hu : 'u'.utf8Size = 1 := by decide
  simp only [List.map_cons, List.map_nil, List.cons.injEq, and_true] at hmap
  simp [scanText, Scan.step, Scan.plain, Scan.escape, Scan.codePoint, hslash, hu, hmap]

theorem codePoint_eq {s : Scan} (between : s.within = .plain) (n : Nat) :
    s.codePoint n =
      match s.lead with
      | some high =>
        if Trailing n then s.push (paired high n) else s.flawed .loneSurrogate s.index
      | none =>
        if Trailing n then s.flawed .loneSurrogate s.index
        else if Leading n then { s with lead := some n }
        else s.push (Char.ofNat n) := by
  obtain ⟨within, lead, text, index, flaw⟩ := s
  obtain rfl : within = .plain := between
  have htrailing : (decide (0xDC00 ≤ n) && decide (n ≤ 0xDFFF)) = decide (Trailing n) :=
    (Bool.decide_and ..).symm
  have hleading : (decide (0xD800 ≤ n) && decide (n ≤ 0xDBFF)) = decide (Leading n) :=
    (Bool.decide_and ..).symm
  cases lead with
  | none => simp only [Scan.codePoint, htrailing, hleading, decide_eq_true_eq]
  | some high => simp only [Scan.codePoint, htrailing, decide_eq_true_eq, paired]

/-- A complete code point counts as one piece more. -/
theorem result_codePoint {s : Scan} (between : s.within = .plain) (n : Nat) (ps : List Piece) :
    (s.codePoint n).within = .plain ∧ (s.codePoint n).result ps = s.result (.unit n :: ps) := by
  have hapart (h : Trailing n) : ¬ Leading n := fun h' => absurd (Nat.le_trans h.1 h'.2) (by decide)
  obtain ⟨within, lead, text, index, flaw⟩ := s
  obtain rfl : within = .plain := between
  rw [codePoint_eq rfl]
  cases lead with
  | none =>
    by_cases htrailing : Trailing n
    · cases flaw <;> simp [Scan.flawed, Scan.result, textBehind, htrailing, hapart htrailing]
    · by_cases hleading : Leading n
      · cases flaw <;> simp [Scan.result, textBehind, htrailing, hleading]
      · cases flaw <;>
          simp [Scan.push, Scan.result, textBehind, htrailing, hleading, Function.comp_def]
  | some high =>
    by_cases htrailing : Trailing n
    · cases flaw <;> simp [Scan.push, Scan.result, textBehind, htrailing, Function.comp_def]
    · cases flaw <;> simp [Scan.flawed, Scan.result, textBehind, htrailing]

theorem passes_unit {s : Scan} (between : s.within = .plain) {n : Nat} {hex : List Char}
    (digits : Hex n hex) : s.Passes (.unit n) ('\\' :: 'u' :: hex) := by
  have hpoint := @result_codePoint { s with index := s.index + 6 } between n
  obtain ⟨within, lead, text, index, flaw⟩ := s
  obtain rfl : within = .plain := between
  exact ⟨_, (hpoint []).1, fun ps => (hpoint ps).2,
    fun start rest => scanText_hex start index lead text flaw digits rest⟩

/-- The lexeme of a quoted text. -/
def quotedKind (text : Option (List Char)) (fault : Fault) (index : Nat) : Lexeme.Kind :=
  match text with
  | some text => .value (.str (String.ofList text))
  | none => .unusable fault index

/-- A quote ends the scan, with a text if nothing was amiss. -/
theorem scanText_quote {s : Scan} (between : s.within = .plain) (start : Nat) (rest : List Char) :
    ∃ fault i stop, scanText start s ('"' :: rest) =
      (⟨quotedKind (s.result []) fault i, true, start, stop⟩, rest) := by
  obtain ⟨within, lead, text, index, flaw⟩ := s
  obtain rfl : within = .plain := between
  cases lead with
  | none =>
    cases flaw with
    | none =>
      refine ⟨.hexEnd, 0, index + '"'.utf8Size, ?_⟩
      simp [scanText, Scan.step, Scan.plain, Scan.result, textBehind, quotedKind]
    | some flaw =>
      refine ⟨flaw.1, flaw.2, index + '"'.utf8Size, ?_⟩
      simp [scanText, Scan.step, Scan.plain, Scan.result, quotedKind]
  | some lead =>
    refine ⟨(flaw.getD (.hexEnd, index + 1)).1, (flaw.getD (.hexEnd, index + 1)).2,
      index + '"'.utf8Size, ?_⟩
    cases flaw <;>
      simp [scanText, Scan.step, Scan.plain, Scan.flawed, Scan.result, textBehind, quotedKind]

/-- What may stand between quotes is read up to the closing quote. -/
theorem scanText_quotes {ps : List Piece} {cs : List Char} (quotes : Quotes ps cs) {s : Scan}
    (between : s.within = .plain) (start : Nat) (rest : List Char) :
    ∃ fault i stop, scanText start s (cs ++ '"' :: rest) =
      (⟨quotedKind (s.result ps) fault i, true, start, stop⟩, rest) := by
  -- on the pieces: each one takes the scan to another one between pieces, with the same result
  have hpasses {p : Piece} {ps : List Piece} {hd tl : List Char} {s : Scan} (passes : s.Passes p hd)
      (ih : ∀ {s : Scan}, s.within = .plain → ∃ fault i stop,
        scanText start s (tl ++ '"' :: rest) =
          (⟨quotedKind (s.result ps) fault i, true, start, stop⟩, rest)) :
      ∃ fault i stop, scanText start s (hd ++ tl ++ '"' :: rest) =
        (⟨quotedKind (s.result (p :: ps)) fault i, true, start, stop⟩, rest) := by
    obtain ⟨s', hwithin, hresult, hscan⟩ := passes
    rw [List.append_assoc, hscan, ← hresult]
    exact ih hwithin
  induction quotes generalizing s with
  | nil => exact scanText_quote between start rest
  | plain free _ ih => exact hpasses (passes_plain between free) ih
  | short known _ ih => exact hpasses (passes_short between known) ih
  | unit digits _ ih => exact hpasses (passes_unit between digits) ih

theorem lexemesAt_quotes {ps : List Piece} {quoted : List Char} (quotes : Quotes ps quoted)
    (index : Nat) (rest : List Char) :
    ∃ fault i stop, lexemesAt index ('"' :: (quoted ++ '"' :: rest)) =
      ⟨quotedKind (text? ps) fault i, true, index, stop⟩ :: lexemesAt stop rest := by
  obtain ⟨fault, i, stop, hscan⟩ :=
    @scanText_quotes ps quoted quotes ⟨.plain, none, [], index + 1, none⟩ rfl index rest
  have hresult : (⟨.plain, none, [], index + 1, none⟩ : Scan).result ps = text? ps :=
    Option.map_id'
  rw [hresult] at hscan
  refine ⟨fault, i, stop, lexemesAt_cons (by decide) hscan fun f i => ?_⟩
  cases text? ps <;> exact nofun

/-- What has a text is read as the text. -/
theorem lexemesAt_text {ps : List Piece} {quoted : List Char} (quotes : Quotes ps quoted)
    (readable : (text? ps).isSome = true) (index : Nat) (rest : List Char) :
    ∃ stop, lexemesAt index ('"' :: (quoted ++ '"' :: rest)) =
      ⟨.value (.str (nameOf ps)), true, index, stop⟩ :: lexemesAt stop rest := by
  obtain ⟨text, htext⟩ := Option.isSome_iff_exists.1 readable
  obtain ⟨fault, i, stop, hread⟩ := lexemesAt_quotes quotes index rest
  refine ⟨stop, ?_⟩
  rw [hread, htext, nameOf, htext, Option.getD_some, quotedKind]

/-- Half of a surrogate pair alone is well formed, but of no use. -/
theorem lexemesAt_lone {ps : List Piece} {quoted : List Char} (quotes : Quotes ps quoted)
    (unreadable : ¬ (text? ps).isSome = true) (index : Nat) (rest : List Char) :
    ∃ fault i stop, lexemesAt index ('"' :: (quoted ++ '"' :: rest)) =
      ⟨.unusable fault i, true, index, stop⟩ :: lexemesAt stop rest := by
  have htext : text? ps = none := by simpa using unreadable
  obtain ⟨fault, i, stop, hread⟩ := lexemesAt_quotes quotes index rest
  exact ⟨fault, i, stop, by rw [hread, htext, quotedKind]⟩

/-! ### Words -/

theorem scanWord_written (start : Nat) (j : Json) (word : List Char) (index : Nat)
    (rest : List Char) :
    scanWord start j word index (word ++ rest) =
      (⟨.value j, false, start, index + word.length⟩, rest) := by
  induction word generalizing index with
  | nil => cases rest <;> rfl
  | cons w ws ih => rw [List.cons_append, scanWord, if_pos rfl, ih, List.length_cons,
      Nat.add_assoc, Nat.add_comm 1]

theorem lexemesAt_word {c : Char} {word : List Char} {j : Json}
    (known : c = 'n' ∧ word = "ull".toList ∧ j = .null ∨
      c = 't' ∧ word = "rue".toList ∧ j = .bool true ∨
      c = 'f' ∧ word = "alse".toList ∧ j = .bool false) (index : Nat) (rest : List Char) :
    ∃ stop, lexemesAt index (c :: (word ++ rest)) =
      ⟨.value j, false, index, stop⟩ :: lexemesAt stop rest := by
  refine ⟨index + 1 + word.length, ?_⟩
  rcases known with ⟨rfl, rfl, rfl⟩ | ⟨rfl, rfl, rfl⟩ | ⟨rfl, rfl, rfl⟩ <;>
    exact lexemesAt_cons (by decide) (scanWord_written _ _ _ _ _) nofun

/-! ### Numerals -/

/-- A text that does not go on a numeral. -/
def Apart (cs : List Char) : Prop :=
  Halts cs ∧ ∀ c ∈ cs.head?, c ≠ '.' ∧ c ≠ 'e' ∧ c ≠ 'E'

theorem apart_nil : Apart [] := ⟨fun _ hc => (nomatch hc), fun _ hc => (nomatch hc)⟩

theorem apart_cons {c : Char} (h : isDigit c = false ∧ c ≠ '.' ∧ c ≠ 'e' ∧ c ≠ 'E')
    (rest : List Char) : Apart (c :: rest) := by
  refine ⟨halts_cons h.1 rest, fun d hd => ?_⟩
  cases hd
  exact h.2

theorem apart_blank {gap rest : List Char} (blank : Blank gap) (apart : Apart rest) :
    Apart (gap ++ rest) := by
  cases gap with
  | nil => exact apart
  | cons c gap =>
    have hc := blank c List.mem_cons_self
    exact apart_cons (by rcases hc with rfl | rfl | rfl | rfl <;> decide) _

theorem exists_cons_of_run {ds : List Char} (run : Run ds) :
    ∃ d tail, ds = d :: tail ∧ isDigit d = true := by
  obtain ⟨d, tail, rfl⟩ := List.exists_cons_of_ne_nil run.1
  exact ⟨d, tail, rfl, run.2 d List.mem_cons_self⟩

theorem scanWhole_run {ds rest : List Char} (run : Run ds)
    (unpadded : ds.head? = some '0' → ds = ['0']) (halts : Halts rest) (index : Nat) :
    ∃ stop, scanWhole (ds ++ rest) index = .ok (ds, rest, stop) := by
  have htaken : (ds ++ rest).takeWhile isDigit = ds := takeWhile_digits run.2 halts
  have hdrop : (ds ++ rest).drop ds.length = rest := List.drop_left
  obtain ⟨d, tail, rfl, -⟩ := exists_cons_of_run run
  rw [List.cons_append] at htaken hdrop ⊢
  by_cases hd : d = '0'
  · have htail : tail = [] := (List.cons.inj (unpadded (congrArg some hd))).2
    subst hd htail
    rw [List.nil_append] at htaken ⊢
    exact ⟨index + 1, by simp [scanWhole, htaken]⟩
  · exact ⟨index + (d :: tail).length, by simp [scanWhole, htaken, hd]⟩

theorem scanFraction_spelled {fraction : Option (List Char)} {fs rest : List Char}
    (point : Fraction fraction fs) (halts : Halts rest)
    (ends : ∀ c ∈ rest.head?, c ≠ '.') (index : Nat) :
    ∃ stop, scanFraction (fs ++ rest) index = .ok (fraction, rest, stop) := by
  cases point with
  | none =>
    refine ⟨index, ?_⟩
    rw [List.nil_append, scanFraction]
    rintro ds rfl
    exact ends '.' rfl rfl
  | @some ds run =>
    have htaken : (ds ++ rest).takeWhile isDigit = ds := takeWhile_digits run.2 halts
    exact ⟨index + 1 + ds.length, by simp [scanFraction, htaken, run.1]⟩

theorem scanExponent_spelled {exponent : Option (Bool × List Char)} {es rest : List Char}
    (power : Exponent exponent es) (apart : Apart rest) (index : Nat) :
    ∃ stop, scanExponent (es ++ rest) index = .ok (exponent, rest, stop) := by
  cases power with
  | none =>
    refine ⟨index, ?_⟩
    cases rest with
    | nil => rfl
    | cons c rest => simp [scanExponent, (apart.2 c rfl).2]
  | @some negative mark sign ds letter signed run =>
    have htaken : (ds ++ rest).takeWhile isDigit = ds := takeWhile_digits run.2 apart.1
    obtain ⟨d, tail, hds, hd⟩ := exists_cons_of_run run
    have hminus : d ≠ '-' := by rintro rfl; exact nomatch hd
    have hplus : d ≠ '+' := by rintro rfl; exact nomatch hd
    have hmark : (mark = 'e' || mark = 'E') = true := by simpa using letter
    cases negative with
    | true =>
      obtain rfl : sign = ['-'] := signed
      exact ⟨index + 2 + ds.length, by simp [scanExponent, hmark, htaken, run.1]⟩
    | false =>
      rcases signed with rfl | rfl
      · refine ⟨index + 1 + ds.length, ?_⟩
        subst hds
        rw [List.cons_append] at htaken
        simp [scanExponent, hmark, hminus, hplus, htaken]
      · exact ⟨index + 2 + ds.length, by simp [scanExponent, hmark, htaken, run.1]⟩

theorem halts_exponent {exponent : Option (Bool × List Char)} {es rest : List Char}
    (power : Exponent exponent es) (apart : Apart rest) :
    Halts (es ++ rest) ∧ ∀ c ∈ (es ++ rest).head?, c ≠ '.' := by
  cases power with
  | none => exact ⟨apart.1, fun c hc => (apart.2 c hc).1⟩
  | some letter _ _ =>
    refine ⟨halts_cons (by rcases letter with rfl | rfl <;> decide) _, fun c hc => ?_⟩
    cases hc
    rcases letter with rfl | rfl <;> decide

theorem halts_fraction {fraction : Option (List Char)} {fs rest : List Char}
    (point : Fraction fraction fs) (halts : Halts rest) : Halts (fs ++ rest) := by
  cases point with
  | none => exact halts
  | some _ => exact halts_cons (by decide) _

/-- What is read of a numeral after its sign. -/
def scanUnsigned (negative : Bool) (cs : List Char) (index : Nat) :
    Except (Fault × Nat) (Numeral × List Char × Nat) := do
  let (whole, cs, index) ← scanWhole cs index
  let (fraction, cs, index) ← scanFraction cs index
  let (exponent, cs, index) ← scanExponent cs index
  .ok (⟨negative, whole, fraction, exponent⟩, cs, index)

theorem scanNumeral_minus (cs : List Char) (index : Nat) :
    scanNumeral ('-' :: cs) index = scanUnsigned true cs (index + 1) := rfl

theorem scanNumeral_unsigned {cs : List Char} (unsigned : ∀ tail, cs ≠ '-' :: tail)
    (index : Nat) : scanNumeral cs index = scanUnsigned false cs index := by
  unfold scanNumeral
  split
  rename_i negative cs' index' hsign
  split at hsign
  · exact absurd rfl (unsigned _)
  · cases hsign
    rfl

/-- What spells a numeral is read as the numeral. -/
theorem scanNumeral_spelled {n : Numeral} {cs rest : List Char} (spelled : n.Spells cs)
    (apart : Apart rest) (index : Nat) :
    ∃ stop, scanNumeral (cs ++ rest) index = .ok (n, rest, stop) := by
  obtain @⟨negative, whole, fs, es, fraction, exponent, run, unpadded, point, power⟩ := spelled
  have hexponent := halts_exponent power apart
  have hunsigned (index : Nat) : ∃ stop, scanUnsigned negative (whole ++ (fs ++ (es ++ rest)))
      index = .ok (⟨negative, whole, fraction, exponent⟩, rest, stop) := by
    obtain ⟨i, hwhole⟩ := scanWhole_run run unpadded (halts_fraction point hexponent.1) index
    obtain ⟨j, hfraction⟩ := scanFraction_spelled point hexponent.1 hexponent.2 i
    obtain ⟨stop, hpower⟩ := scanExponent_spelled power apart j
    exact ⟨stop, by simp only [scanUnsigned, hwhole, hfraction, hpower, bind, Except.bind]⟩
  rw [List.append_assoc, List.append_assoc, List.append_assoc]
  cases negative with
  | true =>
    obtain ⟨stop, hscan⟩ := hunsigned (index + 1)
    exact ⟨stop, (scanNumeral_minus _ index).trans hscan⟩
  | false =>
    obtain ⟨stop, hscan⟩ := hunsigned index
    refine ⟨stop, (scanNumeral_unsigned ?_ index).trans hscan⟩
    obtain ⟨d, tail, rfl, hd⟩ := exists_cons_of_run run
    rintro tail h
    cases h
    exact nomatch hd

/-- The characters that start a lexeme of another kind, or none. -/
def others : List Char :=
  ['[', ']', '{', '}', ':', ',', '"', 'n', 't', 'f', ' ', '\n', '\t', '\r']

/-- What starts like a numeral is a numeral. -/
theorem lexOne_numeral {c : Char} (begins : c = '-' ∨ isDigit c = true) (index : Nat)
    (cs : List Char) : isSpace c = false ∧ lexOne index c cs = lexNumeral index (c :: cs) := by
  have hothers : others.all (fun d => d ≠ '-' && !isDigit d) = true := by decide
  have hne {d : Char} (hd : d ∈ others) : c ≠ d := by
    rintro rfl
    have hc := List.all_eq_true.1 hothers c hd
    rcases begins with rfl | hdigit <;> simp_all
  simp only [others, List.mem_cons, List.not_mem_nil, or_false] at hne
  have hsign : sign? c = none := by simp [sign?, hne]
  have hspace : isSpace c = false := by simp [isSpace, hne]
  refine ⟨hspace, ?_⟩
  simp [lexOne, hsign, hne, begins]

theorem exists_cons_of_numeral {n : Numeral} {cs : List Char} (spelled : n.Spells cs) :
    ∃ c tail, cs = c :: tail ∧ (c = '-' ∨ isDigit c = true) := by
  obtain @⟨negative, whole, fs, es, fraction, exponent, run, unpadded, point, power⟩ := spelled
  cases negative with
  | true => exact ⟨'-', _, rfl, .inl rfl⟩
  | false =>
    obtain ⟨d, tail, rfl, hd⟩ := exists_cons_of_run run
    exact ⟨d, _, rfl, .inr hd⟩

theorem lexemesAt_lexNumeral {n : Numeral} {cs rest : List Char} (spelled : n.Spells cs)
    (apart : Apart rest) (index : Nat) :
    ∃ stop, lexemesAt index (cs ++ rest) =
      ⟨match n.value with
        | some v => .value (.num v)
        | none => .unusable .outOfRange stop, false, index, stop⟩ :: lexemesAt stop rest := by
  obtain ⟨stop, hscan⟩ := scanNumeral_spelled spelled apart index
  obtain ⟨c, tail, rfl, hc⟩ := exists_cons_of_numeral spelled
  rw [List.cons_append] at hscan ⊢
  obtain ⟨hvisible, hnumeral⟩ := lexOne_numeral hc index (tail ++ rest)
  refine ⟨stop, lexemesAt_cons hvisible ?_ ?_⟩
  · cases hvalue : n.value <;> simp only [hnumeral, lexNumeral, hscan, hvalue]
  · split <;> exact nofun

theorem lexemesAt_numeral {n : Numeral} {cs rest : List Char} (spelled : n.Spells cs)
    (readable : n.Readable) (apart : Apart rest) (index : Nat) :
    ∃ stop, lexemesAt index (cs ++ rest) =
      ⟨.value n.json, false, index, stop⟩ :: lexemesAt stop rest := by
  obtain ⟨stop, hread⟩ := lexemesAt_lexNumeral spelled apart index
  obtain ⟨v, hvalue⟩ := Option.isSome_iff_exists.1 readable
  refine ⟨stop, ?_⟩
  rw [hread]
  simp only [Numeral.json, hvalue]

/-- A numeral without a value is well formed, but of no use. -/
theorem lexemesAt_unreadable {n : Numeral} {cs rest : List Char} (spelled : n.Spells cs)
    (unreadable : ¬ n.Readable) (apart : Apart rest) (index : Nat) :
    ∃ stop, lexemesAt index (cs ++ rest) =
      ⟨.unusable .outOfRange stop, false, index, stop⟩ :: lexemesAt stop rest := by
  obtain ⟨stop, hread⟩ := lexemesAt_lexNumeral spelled apart index
  have hvalue : n.value = none := by simpa [Numeral.Readable] using unreadable
  refine ⟨stop, ?_⟩
  rw [hread]
  simp only [hvalue]

end Agora.Json
