import Agora.Proofs.Particular
import Agora.Proofs.Readable

/-!
Which JSON texts are requests. A request is asked for by an object that has its tag exactly once,
and each of its fields exactly once with its value or, if the field may be missing and holds none,
not at all; or by a list of the tag and the values of the fields in their order, of which the last
may be left out if they hold none. Nothing else is read as a request, and nothing else about the
object or the list matters. Every request asks for itself in the text that it is written as.
-/

namespace Agora

open Json Json.Fields

namespace Request

/-- A JSON value asks for a request. -/
inductive AskedBy (r : Request) : Json → Prop
  | object {members : List (String × Json)} (tag : values "type" members = [.str r.kind.name])
    (fields : ∀ p ∈ r.particulars, p.2.HeldBy (values p.1 members)) : AskedBy r (.obj members)
  | list {items : List Json} (fields : Particular.Listed (r.particulars.map (·.2)) items) :
    AskedBy r (.arr (.str r.kind.name :: items))

/-! ### Decoding -/

/-- The tag of a kind is the name that it has in metrics. -/
theorem tag_eq_name (k : Kind) : k.tag = k.name := by cases k <;> decide

theorem name_eq_iff {k : Kind} {name : String} : Kind.ofName? name = some k ↔ k.name = name := by
  constructor
  · intro h
    simpa using List.find?_some h
  · rintro rfl
    exact k.ofName?_name

theorem decoder?_eq (name : String) :
    variants.decoder? name = (Kind.ofName? name).map fun k => k.fields.whole k.shape := by
  rw [Tagged.Variants.decoder?, variants, List.find?_map, Option.map_map]
  simp only [Function.comp_def, tag_eq_name]
  rfl

/-- A value with its tag taken off is decoded to a request exactly if it asks for it. -/
theorem askedBy_iff {r : Request} {j : Json} (whole : j.broken = false) :
    r.AskedBy j ↔ ∃ s decoder, Tagged.Parted j s ∧ variants.decoder? s.tag = some decoder ∧
      decoder s.content = .ok r := by
  constructor
  · intro asked
    have hdecoder : variants.decoder? r.kind.name = some (r.kind.fields.whole r.kind.shape) := by
      rw [decoder?_eq, Kind.ofName?_name, Option.map_some]
    cases asked with
    | object tag fields =>
      exact ⟨_, _, .object tag, hdecoder,
        (ofObject_eq_ok_iff_held (brokenMembers_eq_false_iff.1 whole)).2 fields⟩
    | list fields => exact ⟨_, _, .list, hdecoder, ofList_eq_ok_iff_listed.2 fields⟩
  · rintro ⟨s, decoder, parted, hdecoder, hdecode⟩
    rw [decoder?_eq] at hdecoder
    obtain ⟨k, hk, rfl⟩ := Option.map_eq_some_iff.1 hdecoder
    obtain ⟨find, hbuilt⟩ := exists_build_of_decode hdecode
    obtain rfl := kind_of_build hbuilt
    cases parted with
    | object once =>
      obtain rfl := name_eq_iff.1 hk
      exact .object once ((ofObject_eq_ok_iff_held (brokenMembers_eq_false_iff.1 whole)).1 hdecode)
    | list =>
      obtain rfl := name_eq_iff.1 hk
      exact .list (ofList_eq_ok_iff_listed.1 hdecode)

/-- A well-formed text is read as a request exactly if all its literals stand for something and the
JSON value that it spells asks for the request. -/
theorem ofText_eq_ok_iff {Allowed : Literal → Prop} {cs : List Char} {j : Json} {r : Request}
    (formed : Spells Allowed depthLimit (.value j) cs) :
    ofText cs = .ok r ↔ Spells Literal.Readable depthLimit (.value j) cs ∧ r.AskedBy j := by
  have hwhole : j.broken = false := whole_of_spells formed
  have hread (spelled : Spells Literal.Readable depthLimit (.value j) cs) :
      ofText cs = .ok r ↔ r.AskedBy j := by
    obtain ⟨hroot, hsound, hmarks⟩ := readText_spells spelled (Nat.le_refl _) true
    rw [askedBy_iff hwhole, ofText, Tagged.decode_eq_ok_iff hroot hsound hmarks hwhole]
  constructor
  · intro h
    have hspelled := spells_of_readText formed (Nat.le_refl _) (Tagged.sound_of_decode h)
    exact ⟨hspelled, (hread hspelled).1 h⟩
  · rintro ⟨hspelled, hasked⟩
    exact (hread hspelled).2 hasked

/-! ### What does not matter -/

/-- The names that matter to a request: those of its tag and its fields. -/
def names (r : Request) : List String := "type" :: r.particulars.map (·.1)

/-- JSON values that differ only in the order of members, in members with other names, or in whether
the fields of the request are an object or a list. -/
inductive Rephrased (r : Request) : Json → Json → Prop
  | members {ms ms' : List (String × Json)}
    (same : (ms.filter (·.1 ∈ r.names)).Perm (ms'.filter (·.1 ∈ r.names))) :
    Rephrased r (.obj ms) (.obj ms')
  | form {items : List Json} (short : items.length ≤ r.particulars.length) :
    Rephrased r (.arr (.str r.kind.name :: items))
      (.obj (("type", .str r.kind.name) :: (r.particulars.map (·.1)).zip items))

theorem values_perm {names : List String} {name : String} (mem : name ∈ names)
    {ms ms' : List (String × Json)}
    (same : (ms.filter (·.1 ∈ names)).Perm (ms'.filter (·.1 ∈ names))) :
    (values name ms).Perm (values name ms') := by
  have hfilter (ms : List (String × Json)) :
      values name (ms.filter (·.1 ∈ names)) = values name ms :=
    values_filter (p := (· ∈ names)) (by simpa using mem) ms
  rw [← hfilter ms, ← hfilter ms']
  exact (same.filter _).map _

theorem heldBy_of_perm {p : Particular} {held held' : List Json} (perm : held.Perm held') :
    p.HeldBy held ↔ p.HeldBy held' := by
  simp only [Particular.HeldBy, ← List.perm_singleton, ← List.perm_nil, perm.congr_left]

theorem map_fst_zip_sublist {α β : Type} (as : List α) (bs : List β) :
    ((as.zip bs).map (·.1)).Sublist as := by
  induction as generalizing bs with
  | nil => simp
  | cons a as ih =>
    cases bs with
    | nil => simp
    | cons b bs => simpa using ih bs

/-- Items under the names of fields hold the fields if they are found there. -/
theorem heldBy_zip {r : Request} (items : List Json) {p : String × Particular}
    (mem : p ∈ r.particulars) :
    p.2.HeldBy (values p.1 (("type", .str r.kind.name) :: (r.particulars.map (·.1)).zip items)) ↔
      p.2.Found (member? p.1 ((r.particulars.map (·.1)).zip items)) := by
  have hown : (((r.particulars.map (·.1)).zip items).map (·.1)).Nodup :=
    (map_fst_zip_sublist _ items).nodup r.nodup_names
  have hother : "type" ≠ p.1 := (r.name_ne_tag p mem).symm
  rw [values_cons, if_neg hother, Particular.heldBy_iff, member?_eq_head?]
  exact and_iff_right (length_values_le hown p.1)

theorem values_tag_zip (r : Request) (items : List Json) :
    values "type" (("type", .str r.kind.name) :: (r.particulars.map (·.1)).zip items) =
      [.str r.kind.name] := by
  have hnone : values "type" ((r.particulars.map (·.1)).zip items) = [] := by
    refine values_eq_nil fun m hm => ?_
    have hmem := (map_fst_zip_sublist _ items).subset (List.mem_map_of_mem hm)
    obtain ⟨p, hp, hname⟩ := List.mem_map.1 hmem
    exact hname ▸ r.name_ne_tag p hp
  rw [values_cons, if_pos rfl, hnone]

/-- Whether a value asks for a request does not depend on how it is phrased. -/
theorem askedBy_of_rephrased {r : Request} {j k : Json} (same : r.Rephrased j k) :
    r.AskedBy j ↔ r.AskedBy k := by
  have hobject (members : List (String × Json)) : r.AskedBy (.obj members) ↔
      values "type" members = [.str r.kind.name] ∧
        ∀ p ∈ r.particulars, p.2.HeldBy (values p.1 members) := by
    refine ⟨fun h => ?_, fun h => .object h.1 h.2⟩
    cases h with
    | object tag fields => exact ⟨tag, fields⟩
  cases same with
  | @members ms ms' same =>
    have htag := values_perm (List.mem_cons_self (a := "type")) same
    have hfields : ∀ p ∈ r.particulars, (values p.1 ms).Perm (values p.1 ms') := fun p hp =>
      values_perm (List.mem_cons_of_mem _ (List.mem_map_of_mem hp)) same
    rw [hobject, hobject, ← List.perm_singleton, ← List.perm_singleton, htag.congr_left]
    exact and_congr_right fun _ => forall₂_congr fun p hp => heldBy_of_perm (hfields p hp)
  | @form items short =>
    have hlist : r.AskedBy (.arr (.str r.kind.name :: items)) ↔
        Particular.Listed (r.particulars.map (·.2)) items := by
      refine ⟨fun h => ?_, .list⟩
      cases h with
      | list fields => exact fields
    rw [hlist, hobject, values_tag_zip, listed_iff r.nodup_names]
    refine ⟨fun h => ⟨rfl, fun p hp => (heldBy_zip items hp).2 (h.2 p hp)⟩, fun h => ⟨short, ?_⟩⟩
    exact fun p hp => (heldBy_zip items hp).1 (h.2 p hp)

/-- Decoding accepts exactly what asks for a request: a well-formed text of any literals is read as
a request if and only if its literals stand for something and the JSON value that it spells asks for
the request. All literals do so if the numerals keep away from the largest double and surrogates
stand in pairs; integers are spelled by digits and a sign alone; and every text that phrases the
request otherwise is read as it too. -/
theorem ofText_accepts_exactly {Allowed : Literal → Prop} {cs : List Char} {j : Json}
    (formed : Spells Allowed depthLimit (.value j) cs) (r : Request) :
    (ofText cs = .ok r ↔ Spells Literal.Readable depthLimit (.value j) cs ∧ r.AskedBy j) ∧
      ((∀ l, Allowed l → l.Moderate) → (ofText cs = .ok r ↔ r.AskedBy j)) ∧
      (∀ (n : Numeral) (i : Int), n.json = .int i ↔ n.SpellsInt i) ∧
      ∀ {cs' : List Char} {j' : Json}, Spells Literal.Readable depthLimit (.value j) cs →
        Spells Literal.Readable depthLimit (.value j') cs' → r.Rephrased j j' →
        (ofText cs' = .ok r ↔ ofText cs = .ok r) := by
  refine ⟨ofText_eq_ok_iff formed, fun moderate => ?_, fun n i => Numeral.json_eq_int_iff,
    fun spelled spelled' same => ?_⟩
  · have hreadable := spells_imp (fun l hl => Literal.readable_of_moderate (moderate l hl)) formed
    rw [ofText_eq_ok_iff formed, and_iff_right hreadable]
  · rw [ofText_eq_ok_iff formed, ofText_eq_ok_iff spelled', askedBy_of_rephrased same,
      and_iff_right spelled, and_iff_right spelled']

/-- A feed asked for by an object with the tag in front. -/
def earlyFeed : Json := .obj [("type", .str "get_feed"), ("subreddit_ids", .arr [.str "a"])]

/-- One and a half. -/
def oneAndHalf : Numeral := ⟨false, ['1'], some ['5'], none⟩

/-- The same feed with the tag at the end and a member that is no field. -/
def lateFeed : Json :=
  .obj [("subreddit_ids", .arr [.str "a"]), ("shade", oneAndHalf.json), ("type", .str "get_feed")]

/-- The text of that feed. -/
def lateText : List Char :=
  '{' :: (quote "subreddit_ids" ++ ':' :: ('[' :: (quote "a" ++ [']']) ++ ',' ::
    (quote "shade" ++ ':' :: (['1', '.', '5'] ++ ',' ::
      (quote "type" ++ ':' :: quote "get_feed")))) ++ ['}'])

theorem spells_lateText : Spells Literal.Moderate depthLimit (.value lateFeed) lateText := by
  have htexts : ∀ ps, (text? ps).isSome = true → (Literal.quoted ps).Moderate := fun _ h => h
  have hone : Run ['1'] := ⟨by decide, List.all_eq_true.1 (by decide)⟩
  have hfive : Run ['5'] := ⟨by decide, List.all_eq_true.1 (by decide)⟩
  have hnumeral : oneAndHalf.Spells ['1', '.', '5'] := .mk hone (by decide) (.some hfive) .none
  exact .object (spells_member htexts "subreddit_ids" (.list (.lastItem (spells_quote htexts "a")))
    (spells_member htexts "shade" (.num hnumeral (by decide +kernel))
      (spells_lastMember htexts "type" (spells_quote htexts "get_feed"))))

theorem askedBy_lateFeed : (getFeed ["a"] none).AskedBy lateFeed := by
  refine .object rfl ?_
  rw [particulars, List.forall_mem_cons, List.forall_mem_singleton]
  exact ⟨.inl rfl, .inr ⟨rfl, rfl⟩⟩

theorem ofText_of_early_and_late_feed :
    Spells Literal.Moderate depthLimit (.value lateFeed) lateText ∧
      Spells Literal.Readable depthLimit (.value earlyFeed) earlyFeed.write ∧
      (getFeed ["a"] none).Rephrased lateFeed earlyFeed ∧
      ofText lateText = .ok (.getFeed ["a"] none) ∧
      ofText earlyFeed.write = .ok (.getFeed ["a"] none) := by
  have hearly : Spells Literal.Readable depthLimit (.value earlyFeed) earlyFeed.write :=
    spells_write (.obj (by simp [Plain.str, Plain.arr]))
  have hlate : Spells Literal.Readable depthLimit (.value lateFeed) lateText :=
    spells_imp (fun _ => Literal.readable_of_moderate) spells_lateText
  have hsame : (getFeed ["a"] none).Rephrased lateFeed earlyFeed := .members (.swap ..)
  obtain ⟨-, haccepts, -, hother⟩ := ofText_accepts_exactly spells_lateText (.getFeed ["a"] none)
  have hread := (haccepts fun _ h => h).2 askedBy_lateFeed
  exact ⟨spells_lateText, hearly, hsame, hread, (hother hlate hearly hsame).2 hread⟩

/-- A ping with a member that is no field. -/
def pingWith (j : Json) : Json := .obj [("type", .str "ping"), ("x", j)]

/-- The text of such a ping, around the text of the member. -/
def pingText (cs : List Char) : List Char :=
  '{' :: (quote "type" ++ ':' :: (quote "ping" ++ ',' :: (quote "x" ++ ':' :: cs)) ++ ['}'])

theorem askedBy_pingWith (j : Json) : ping.AskedBy (pingWith j) :=
  .object rfl fun _ hp => (nomatch hp)

theorem spells_pingText {j : Json} {cs : List Char}
    (inner : Spells Literal.InDoubles 126 (.value j) cs) :
    Spells Literal.InDoubles depthLimit (.value (pingWith j)) (pingText cs) := by
  have htexts : ∀ ps, (text? ps).isSome = true → (Literal.quoted ps).InDoubles :=
    fun _ _ => trivial
  exact .object (spells_member htexts "type" (spells_quote htexts "ping")
    (spells_lastMember htexts "x" inner))

/-- A numeral just below the largest double. -/
def nearTop : Numeral := ⟨false, "1797693134862315708".toList, none, some (false, "290".toList)⟩

theorem spells_nearTop : Spells Literal.InDoubles 126 (.value nearTop.json)
    "1797693134862315708e290".toList := by
  have hwhole : Run "1797693134862315708".toList := ⟨by decide, List.all_eq_true.1 (by decide)⟩
  have hdigits : Run "290".toList := ⟨by decide, List.all_eq_true.1 (by decide)⟩
  have hpower : Exponent (some (false, "290".toList)) "e290".toList :=
    @Exponent.some false 'e' [] _ (.inl rfl) (by simp) hdigits
  have hnumeral : nearTop.Spells "1797693134862315708e290".toList :=
    .mk hwhole (by decide) .none hpower
  exact .num hnumeral (by decide +kernel)

/-- The first half of a surrogate pair, alone between quotes. -/
def lone : List Char := '"' :: ("\\ud800".toList ++ ['"'])

theorem spells_lone : Spells Literal.InDoubles 126 (.value .spoilt) lone := by
  have hhex : Hex 0xd800 "d800".toList := ⟨13, 8, 0, 0, by decide, by decide⟩
  exact @Spells.text _ _ [.unit 0xd800] _ (.unit hhex .nil) trivial

/-- The numeral minus zero. -/
def minusZero : Numeral := ⟨true, ['0'], none, none⟩

/-- A feed with minus zero for its limit. -/
def minusZeroFeed : List Char :=
  '{' :: (quote "type" ++ ':' :: (quote "get_feed" ++ ',' ::
    (quote "subreddit_ids" ++ ':' :: ("[]".toList ++ ',' ::
      (quote "limit" ++ ':' :: "-0".toList)))) ++ ['}'])

theorem spells_minusZeroFeed : Spells Literal.InDoubles depthLimit
    (.value (.obj [("type", .str "get_feed"), ("subreddit_ids", .arr []),
      ("limit", minusZero.json)])) minusZeroFeed := by
  have htexts : ∀ ps, (text? ps).isSome = true → (Literal.quoted ps).InDoubles :=
    fun _ _ => trivial
  have hwhole : Run ['0'] := ⟨by decide, List.all_eq_true.1 (by decide)⟩
  have hnumeral : minusZero.Spells "-0".toList :=
    @Numeral.Spells.mk true ['0'] [] [] none none hwhole (fun _ => rfl) .none .none
  have hlist : Spells Literal.InDoubles 126 (.value (.arr [])) "[]".toList :=
    @Spells.emptyList _ _ [] fun c hc => (nomatch hc)
  exact .object (spells_member htexts "type" (spells_quote htexts "get_feed")
    (spells_member htexts "subreddit_ids" hlist
      (spells_lastMember htexts "limit" (.num hnumeral (by decide +kernel)))))

/-- It is not enough that a text is well formed, that doubles can hold all its numbers and that a
limit is a whole number that fits 64 bits: near the largest double a numeral may be refused, half of
a surrogate pair is refused where it stands alone, and minus zero is no integer. -/
theorem refuses_some_well_formed :
    (¬ ∀ (cs : List Char) (j : Json) (r : Request),
      Spells Literal.InDoubles depthLimit (.value j) cs → (ofText cs = .ok r ↔ r.AskedBy j)) ∧
    (Spells Literal.InDoubles depthLimit (.value (pingWith nearTop.json))
        (pingText "1797693134862315708e290".toList) ∧
      (ofText (pingText "1797693134862315708e290".toList)).isOk = false) ∧
    (Spells Literal.InDoubles depthLimit (.value (pingWith .spoilt)) (pingText lone) ∧
      (ofText (pingText lone)).isOk = false) ∧
    Spells Literal.InDoubles depthLimit
      (.value (.obj [("type", .str "get_feed"), ("subreddit_ids", .arr []),
        ("limit", minusZero.json)])) minusZeroFeed ∧
    (ofText minusZeroFeed).isOk = false := by
  have htop : (ofText (pingText "1797693134862315708e290".toList)).isOk = false := by
    decide +kernel
  refine ⟨fun accepts => ?_, ⟨spells_pingText spells_nearTop, htop⟩,
    ⟨spells_pingText spells_lone, by decide +kernel⟩, spells_minusZeroFeed, by decide +kernel⟩
  rw [(accepts _ _ ping (spells_pingText spells_nearTop)).2 (askedBy_pingWith _)] at htop
  exact nomatch htop

/-! ### Round trip -/

theorem members_eq (r : Request) : r.members = r.particulars.map fun p => (p.1, p.2.json) := by
  cases r <;> rfl

/-- A request asks for itself by the object that it is written as. -/
theorem askedBy_toJson (r : Request) : r.AskedBy r.toJson := by
  have hnames : (("type", Json.str r.kind.name) :: r.members).map (·.1) = r.names := by
    rw [members_eq, names]
    simp
  have hown : ((("type", Json.str r.kind.name) :: r.members).map (·.1)).Nodup := by
    rw [hnames, names, List.nodup_cons]
    refine ⟨fun hmem => ?_, r.nodup_names⟩
    obtain ⟨p, hp, hname⟩ := List.mem_map.1 hmem
    exact r.name_ne_tag p hp hname
  rw [toJson, tag_eq_name]
  refine .object (values_of_mem hown List.mem_cons_self) fun p hp => .inl ?_
  have hmem : (p.1, p.2.json) ∈ r.members := by
    rw [members_eq]
    exact List.mem_map_of_mem hp
  exact values_of_mem hown (List.mem_cons_of_mem _ hmem)

theorem plain_json {depth : Nat} (p : Particular) : Plain (depth + 1) p.json := by
  cases p with
  | text s => exact .str
  | flag b => exact .bool
  | texts ss => exact plain_list (fun _ => .str) ss
  | mayText s => exact plain_optional (fun _ => .str) s
  | mayCount n =>
    refine plain_optional (fun n => .int ⟨?_, ?_⟩) n
    · omega
    · have hlt := n.toNat_lt
      omega

theorem plain_toJson (r : Request) : Plain depthLimit r.toJson := by
  refine .obj (List.forall_mem_cons.2 ⟨.str, fun m hm => ?_⟩)
  rw [members_eq] at hm
  obtain ⟨p, -, rfl⟩ := List.mem_map.1 hm
  exact plain_json p.2

/-- A request is read back from the text that it is written as, whose tag is the name that the kind
of the request has in metrics. -/
theorem reads_back_under_its_name (r : Request) :
    ofText r.toJson.write = .ok r ∧
      ∃ members, (readText true r.toJson.write).root = .obj members ∧
        values "type" members = [.str r.kind.name] := by
  have hspells : Spells Literal.Readable depthLimit (.value r.toJson) r.toJson.write :=
    spells_write r.plain_toJson
  refine ⟨(ofText_eq_ok_iff hspells).2 ⟨hspells, r.askedBy_toJson⟩, _,
    (readText_spells hspells (Nat.le_refl _) true).1, ?_⟩
  have hasked := r.askedBy_toJson
  rw [toJson] at hasked
  cases hasked with
  | object tag _ => exact tag

end Request

end Agora
