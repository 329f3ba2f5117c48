import Agora.Connection
import Agora.Proofs.Codec
import Mathlib.Data.List.TakeWhile

/-!
Lines of bytes. Bytes are the UTF-8 form of one text at most, and a byte below 128 in it is a
character of its own. So lines that are framed by line feeds are found again if no line has one in
its text; responses have none, so what they were is found again in what is sent. And whether a
carriage return at the end of a line is dropped or not makes no difference once the line is trimmed;
so what a stream asks for can be told from where its line feeds are, from the texts that its lines
are the UTF-8 form of and from the white space at their ends.
-/

namespace Agora.Connection

open Text

/-! ### UTF-8 -/

/-- The UTF-8 form of some characters. -/
def encodeChars (cs : List Char) : List UInt8 := cs.flatMap String.utf8EncodeChar

theorem toByteArray_eq (s : String) : s.toByteArray = ⟨(encodeChars s.toList).toArray⟩ := by
  rw [← String.utf8Encode_toList, List.utf8Encode, ← List.data_toByteArray]
  rfl

theorem encode_eq (s : String) : encode s = encodeChars s.toList := by
  rw [encode, String.toUTF8_eq_toByteArray, toByteArray_eq]

/-- Bytes are decoded to the text that they are the UTF-8 form of. -/
theorem decode?_eq_some_iff {bytes : List UInt8} {cs : List Char} :
    decode? bytes = some cs ↔ bytes = encodeChars cs := by
  rw [decode?, Option.map_eq_some_iff]
  constructor
  · rintro ⟨s, hs, rfl⟩
    rw [String.fromUTF8?] at hs
    split at hs
    · rename_i valid
      cases hs
      have h : (⟨bytes.toArray⟩ : ByteArray) = _ := toByteArray_eq (String.fromUTF8 _ valid)
      simpa using h
    · exact nomatch hs
  · rintro rfl
    have h := toByteArray_eq (String.ofList cs)
    rw [String.toList_ofList] at h
    refine ⟨String.ofList cs, ?_, String.toList_ofList⟩
    rw [← h, String.fromUTF8?, dif_pos (String.ofList cs).isValidUTF8]
    rfl

theorem decode?_encode (s : String) : decode? (encode s) = some s.toList :=
  decode?_eq_some_iff.2 (encode_eq s)

/-- A byte below 128 is a character of its own. -/
theorem encodeChar_of_ascii {c : Char} {b : UInt8} (h : b ∈ String.utf8EncodeChar c)
    (ascii : b.toNat < 0x80) : String.utf8EncodeChar c = [b] ∧ c.toNat = b.toNat := by
  have hc : c.toNat = c.val.toNat := rfl
  revert h
  fun_cases String.utf8EncodeChar c
  all_goals
    intro h
    simp only [List.mem_cons, List.not_mem_nil, or_false] at h
  case case1 v hv =>
    rw [h, UInt8.toNat_ofNat']
    exact ⟨rfl, by omega⟩
  all_goals
    simp only [← UInt8.toNat_inj, UInt8.toNat_ofNat'] at h
    omega

theorem lineFeed_not_mem_encode {s : String} (printed : Json.Printed s.toList) :
    lineFeed ∉ encode s := by
  intro h
  rw [encode_eq] at h
  obtain ⟨c, hc, hb⟩ := List.mem_flatMap.1 h
  have hten : c.toNat = 10 := (encodeChar_of_ascii hb (by decide)).2
  exact printed c hc (by omega)

/-! ### Lines that were framed -/

/-- Lines are found again between the line feeds, with nothing behind the last. -/
theorem pieces_frame {lines : List String} (h : ∀ line ∈ lines, lineFeed ∉ encode line) :
    pieces lineFeed (frame lines) = lines.map encode ++ [[]] := by
  induction lines with
  | nil => rfl
  | cons line lines ih =>
    have hline := h line List.mem_cons_self
    have hlines := ih fun l hl => h l (List.mem_cons_of_mem _ hl)
    rw [frame, List.flatMap_cons, List.append_assoc, List.singleton_append, pieces_append,
      pieces_of_not_mem hline, List.map_cons, List.cons_append, List.cons_append, ← hlines]
    rfl

/-! ### Lines that come in -/

/-- A stream of bytes is made of some lines. Each has a line feed behind it, but what stands behind
the last line feed is a line too if there is anything. -/
inductive Lines : List UInt8 → List (List UInt8) → Prop
  | done : Lines [] []
  | last {line : List UInt8} (filled : line ≠ []) (one : lineFeed ∉ line) : Lines line [line]
  | line {line bytes : List UInt8} {lines : List (List UInt8)} (one : lineFeed ∉ line)
    (later : Lines bytes lines) : Lines (line ++ lineFeed :: bytes) (line :: lines)

/-- A text that is not empty and has no white space at its ends. -/
structure Solid (cs : List Char) : Prop where
  filled : cs ≠ []
  opens : ∀ c ∈ cs.head?, isWhite c = false
  closes : ∀ c ∈ cs.getLast?, isWhite c = false

/-- What some lines ask for. A line that is the UTF-8 form of no text ends everything, a blank one
asks for nothing, and any other one asks for what is left without the white space at its ends. -/
inductive Asks : List (List UInt8) → List (List Char) → Prop
  | done : Asks [] []
  | garbled {line : List UInt8} {lines : List (List UInt8)}
    (garbled : ∀ cs, line ≠ encodeChars cs) :
    Asks (line :: lines) []
  | blank {cs : List Char} {lines : List (List UInt8)} {asked : List (List Char)}
    (white : ∀ c ∈ cs, isWhite c = true) (later : Asks lines asked) :
    Asks (encodeChars cs :: lines) asked
  | line {before core after : List Char} {lines : List (List UInt8)} {asked : List (List Char)}
    (white : ∀ c ∈ before ++ after, isWhite c = true) (solid : Solid core)
    (later : Asks lines asked) :
    Asks (encodeChars (before ++ core ++ after) :: lines) (core :: asked)

/-- The lines of a stream as they stand between line feeds. What stands behind the last line feed
is a line if there is anything. -/
def rawLines (bytes : List UInt8) : List (List UInt8) :=
  if (pieces lineFeed bytes).getLast? = some [] then (pieces lineFeed bytes).dropLast
  else pieces lineFeed bytes

/-- What is asked in a stream: the lines that are not blank, trimmed, up to the first line that is
not UTF-8. -/
def asked (bytes : List UInt8) : List (List Char) :=
  ((texts (rawLines bytes)).map trim).filter (· ≠ [])

theorem trim_concat_of_white {c : Char} (white : isWhite c = true) (cs : List Char) :
    trim (cs ++ [c]) = trim cs := by
  rw [trim, trim, trimStart, List.dropWhile_append]
  split
  · rename_i hblank
    rw [trimStart, List.isEmpty_iff.1 hblank, List.dropWhile_cons_of_pos white]
    rfl
  · exact trimEnd_append (List.forall_mem_singleton.2 white) _

/-- Bytes that end in a carriage return are UTF-8 just when the bytes before it are. -/
theorem eq_encodeChars_of_return {line : List UInt8} {cs : List Char}
    (h : line ++ [carriageReturn] = encodeChars cs) : ∃ ds, line = encodeChars ds := by
  rcases List.eq_nil_or_concat cs with rfl | ⟨ds, d, rfl⟩
  · exact absurd h (List.append_ne_nil_of_right_ne_nil _ (List.cons_ne_nil _ _))
  · have hsplit : encodeChars (ds.concat d) = encodeChars ds ++ String.utf8EncodeChar d := by
      rw [List.concat_eq_append, encodeChars, encodeChars, List.flatMap_append,
        List.flatMap_singleton]
    rw [hsplit] at h
    have hlast : carriageReturn ∈ String.utf8EncodeChar d := by
      have hgetLast := congrArg List.getLast? h
      rw [List.getLast?_concat, List.getLast?_append_of_ne_nil _ String.utf8EncodeChar_ne_nil]
        at hgetLast
      exact List.mem_of_getLast? hgetLast.symm
    rw [(encodeChar_of_ascii hlast (by decide)).1] at h
    exact ⟨ds, (List.append_inj' h rfl).1⟩

/-- What a line asks for is its text without the white space at its ends, if it has a text. -/
def trimmed? (line : List UInt8) : Option (List Char) := (decode? line).map trim

/-- A carriage return at the end of a line is white space at the end of its text. -/
theorem trimmed?_concat_return (line : List UInt8) :
    trimmed? (line ++ [carriageReturn]) = trimmed? line := by
  cases h : decode? line with
  | some cs =>
    have hline := decode?_eq_some_iff.1 h
    have hmore : decode? (line ++ [carriageReturn]) = some (cs ++ ['\r']) :=
      decode?_eq_some_iff.2 (by rw [hline, encodeChars, encodeChars, List.flatMap_append]; rfl)
    rw [trimmed?, trimmed?, h, hmore, Option.map_some, Option.map_some,
      trim_concat_of_white (by decide)]
  | none =>
    cases hmore : decode? (line ++ [carriageReturn]) with
    | none => rw [trimmed?, trimmed?, h, hmore]
    | some cs =>
      obtain ⟨ds, hline⟩ := eq_encodeChars_of_return (decode?_eq_some_iff.1 hmore)
      exact nomatch h.symm.trans (decode?_eq_some_iff.2 hline)

theorem trimmed?_dropReturn (line : List UInt8) : trimmed? (dropReturn line) = trimmed? line := by
  rw [dropReturn]
  split
  · rename_i hlast
    obtain ⟨init, rfl⟩ := List.getLast?_eq_some_iff.1 hlast
    rw [List.dropLast_concat, trimmed?_concat_return]
  · rfl

theorem map_trim_texts {lines lines' : List (List UInt8)}
    (h : lines.map trimmed? = lines'.map trimmed?) :
    (texts lines).map trim = (texts lines').map trim := by
  induction lines generalizing lines' with
  | nil =>
    obtain rfl := List.map_eq_nil_iff.1 h.symm
    rfl
  | cons line lines ih =>
    obtain ⟨line', lines', rfl, hline, hlines⟩ := List.map_eq_cons_iff.1 h.symm
    rw [trimmed?, trimmed?] at hline
    rw [texts, texts]
    cases hl : decode? line with
    | none =>
      rw [hl] at hline
      have hl' : decode? line' = none := by simpa using hline
      rw [hl']
    | some cs =>
      rw [hl, Option.map_some] at hline
      obtain ⟨ds, hl', htrim⟩ := Option.map_eq_some_iff.1 hline
      rw [hl', List.map_cons, List.map_cons, ih hlines.symm, htrim]

theorem map_trimmed?_linesOf (bytes : List UInt8) :
    (linesOf bytes).map trimmed? = (rawLines bytes).map trimmed? := by
  have hdrop (done : List (List UInt8)) :
      (done.map dropReturn).map trimmed? = done.map trimmed? := by
    rw [List.map_map]
    exact List.map_congr_left fun line _ => trimmed?_dropReturn line
  rw [linesOf, rawLines]
  rcases List.eq_nil_or_concat (pieces lineFeed bytes) with h | ⟨done, last, h⟩ <;> rw [h]
  · rfl
  · rw [List.concat_eq_append, List.reverse_append, List.reverse_singleton,
      List.singleton_append, List.getLast?_concat, List.dropLast_concat]
    by_cases hlast : last = []
    · subst hlast
      simp only [if_true, ← List.map_reverse, List.reverse_reverse, hdrop]
    · have hne : some last ≠ some [] := fun heq => hlast (Option.some.inj heq)
      rw [if_neg hne]
      split
      · rename_i heq
        exact nomatch heq
      · rename_i heq
        exact absurd (List.cons.inj heq).1 hlast
      · rename_i heq
        obtain ⟨rfl, rfl⟩ := List.cons.inj heq
        rw [List.reverse_cons, List.map_append, List.map_append, ← List.map_reverse,
          List.reverse_reverse, hdrop]

theorem lines_rawLines (bytes : List UInt8) : Lines bytes (rawLines bytes) := by
  induction hlength : bytes.length using Nat.strong_induction_on generalizing bytes with
  | _ n ih =>
    by_cases hmem : lineFeed ∈ bytes
    · obtain ⟨line, later, rfl, hline⟩ := List.eq_append_cons_of_mem hmem
      have hlater := ih later.length (by rw [← hlength]; simp; omega) later rfl
      have hraw : rawLines (line ++ lineFeed :: later) = line :: rawLines later := by
        have hne := pieces_ne_nil lineFeed later
        rw [rawLines, rawLines, pieces_append, pieces_of_not_mem hline,
          List.getLast?_append_of_ne_nil _ hne, List.dropLast_append_of_ne_nil hne]
        split <;> rfl
      exact hraw ▸ .line hline hlater
    · rw [rawLines, pieces_of_not_mem hmem, List.getLast?_singleton, List.dropLast_singleton]
      split
      · rename_i hnil
        exact Option.some.inj hnil ▸ .done
      · rename_i hfilled
        exact .last (fun hnil => hfilled (congrArg some hnil)) hmem

theorem head?_dropWhile_isWhite {cs : List Char} : ∀ c ∈ (cs.dropWhile isWhite).head?,
    isWhite c = false := by
  intro c hc
  have h := List.head?_dropWhile_not isWhite cs
  rwa [hc] at h

/-- Trimming takes white space off both ends, all that there is. -/
theorem trim_spec (cs : List Char) : ∃ before after, cs = before ++ trim cs ++ after ∧
    (∀ c ∈ before ++ after, isWhite c = true) ∧ (trim cs ≠ [] → Solid (trim cs)) := by
  have hend : trim cs ++ ((trimStart cs).reverse.takeWhile isWhite).reverse = trimStart cs := by
    rw [trim, trimEnd, ← List.reverse_append, List.takeWhile_append_dropWhile,
      List.reverse_reverse]
  refine ⟨cs.takeWhile isWhite, ((trimStart cs).reverse.takeWhile isWhite).reverse, ?_,
    fun c hc => ?_, fun hfilled => ⟨hfilled, ?_, ?_⟩⟩
  · rw [List.append_assoc, hend]
    exact List.takeWhile_append_dropWhile.symm
  · rcases List.mem_append.1 hc with hc | hc
    · exact List.mem_takeWhile_imp hc
    · exact List.mem_takeWhile_imp (List.mem_reverse.1 hc)
  · intro c hc
    have hstart : (trimStart cs).head? = some c := by
      rw [← hend, List.head?_append, Option.mem_def.1 hc]
      rfl
    exact head?_dropWhile_isWhite c hstart
  · intro c hc
    rw [trim, trimEnd, List.getLast?_reverse] at hc
    exact head?_dropWhile_isWhite c hc

theorem asks_texts (lines : List (List UInt8)) :
    Asks lines (((texts lines).map trim).filter (· ≠ [])) := by
  induction lines with
  | nil => exact .done
  | cons line lines ih =>
    rw [texts]
    cases h : decode? line with
    | none =>
      exact .garbled fun cs hcs => nomatch h.symm.trans (decode?_eq_some_iff.2 hcs)
    | some cs =>
      obtain rfl := decode?_eq_some_iff.1 h
      obtain ⟨before, after, hcs, white, solid⟩ := trim_spec cs
      by_cases hblank : trim cs = []
      · simp only [List.map_cons]
        rw [List.filter_cons_of_neg (by simpa using hblank)]
        rw [hblank, List.append_nil] at hcs
        exact .blank (hcs ▸ white) ih
      · simp only [List.map_cons]
        rw [List.filter_cons_of_pos (by simpa using hblank)]
        have hline := Asks.line white (solid hblank) ih
        rwa [← hcs] at hline

theorem asked_eq (bytes : List UInt8) :
    asked bytes = ((texts (linesOf bytes)).map trim).filter (· ≠ []) := by
  rw [asked, map_trim_texts (map_trimmed?_linesOf bytes)]

end Agora.Connection
