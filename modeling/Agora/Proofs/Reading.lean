import Agora.Json.Reader
import Agora.Proofs.Lexeme
import Agora.Proofs.Writing

/-!
What spells a value is read as that value. A machine that needs a value, however many containers
are open around it, takes the text of a value as that value and stands behind it, if the numerals in
it have values and no more depth is needed than is left. So the document of a text that spells a
value is the value, without a fault, and has a mark for each part of it; what was written is read
back.
-/

namespace Agora.Json

/-! ### Steps of the machine -/

/-- The number of parts of a value: its items or its members. -/
def parts : Json → Nat
  | .arr items => items.length
  | .obj members => members.length
  | _ => 0

namespace Reader

/-- The machine after the rest of a text, `index` bytes from its start. -/
def after (strict : Bool) (r : Reader) (index : Nat) (cs : List Char) : Reader :=
  (lexemesAt index cs).foldl (step strict) r

/-- The machine needs a value. -/
structure Ready (r : Reader) : Prop where
  sound : r.fault = none
  wants : r.want = .value ∨ r.want = .firstItem ∨ r.want = .item

variable {strict : Bool} {r : Reader} {outer : List Frame} {opened colon : Nat}
  {items : List Json} {members : List (String × Json)} {key : String}

theorem after_sign {c : Char} {s : Sign} (h : sign? c = some s) (index : Nat) (cs : List Char) :
    r.after strict index (c :: cs) =
      (r.step strict ⟨.sign s, false, index, index + 1⟩).after strict (index + 1) cs := by
  rw [after, lexemesAt_sign h, List.foldl_cons]
  rfl

theorem after_of_lexemesAt {index : Nat} {cs rest : List Char} {l : Lexeme}
    (h : lexemesAt index cs = l :: lexemesAt l.stop rest) :
    r.after strict index cs = (r.step strict l).after strict l.stop rest := by
  rw [after, h, List.foldl_cons]
  rfl

theorem after_blank (strict : Bool) (r : Reader) {gap : List Char} (blank : Blank gap) (index : Nat)
    (cs : List Char) :
    ∃ index', r.after strict index (gap ++ cs) = r.after strict index' cs := by
  obtain ⟨index', hread⟩ := lexemesAt_blank blank index cs
  exact ⟨index', by rw [after, hread, after]⟩

theorem step_value (ready : r.Ready) {l : Lexeme} {j : Json} (h : l.kind = .value j) :
    r.step strict l = r.deliver j l.start l.stop := by
  rcases ready with ⟨hsound, hwant | hwant | hwant⟩ <;>
    simp [step, hsound, hwant, takeValue, h]

theorem after_openList (ready : r.Ready) (room : r.stack.length < depthLimit) (index : Nat)
    (cs : List Char) : r.after strict index ('[' :: cs) =
      { r with stack := .list index [] :: r.stack, want := .firstItem }.after strict (index + 1)
        cs := by
  have hroom := Nat.not_le.2 room
  rw [after_sign rfl]
  rcases ready with ⟨hsound, hwant | hwant | hwant⟩ <;>
    simp [step, hsound, hwant, takeValue, Reader.open, hroom]

theorem after_openObject (ready : r.Ready) (room : r.stack.length < depthLimit) (index : Nat)
    (cs : List Char) : r.after strict index ('{' :: cs) =
      { r with stack := .object index [] "" index false :: r.stack, want := .firstKey }.after strict
        (index + 1) cs := by
  have hroom := Nat.not_le.2 room
  rw [after_sign rfl]
  rcases ready with ⟨hsound, hwant | hwant | hwant⟩ <;>
    simp [step, hsound, hwant, takeValue, Reader.open, hroom]

theorem deliver_want (r : Reader) (want : Want) (j : Json) (start stop : Nat) :
    { r with want := want }.deliver j start stop = r.deliver j start stop := by
  obtain ⟨stack, _, _, _, _, _, _⟩ := r
  cases stack with
  | nil => rfl
  | cons frame outer => cases frame <;> rfl

/-- A part that is delivered to the innermost container leaves a mark if that is the outermost. -/
theorem deliver_list (stack : r.stack = .list opened items :: outer) (j : Json)
    (start stop : Nat) :
    ∃ marks, marks.length = (if outer.isEmpty then 1 else 0) ∧ r.deliver j start stop =
      { r with
        stack := .list opened (j :: items) :: outer
        want := .more
        marks := marks ++ r.marks } := by
  refine ⟨if outer.isEmpty then [⟨start, start, stop⟩] else [], by split <;> rfl, ?_⟩
  rw [deliver, stack]
  dsimp only
  split <;> rfl

theorem deliver_object (stack : r.stack = .object opened members key colon false :: outer)
    (j : Json) (start stop : Nat) :
    ∃ marks, marks.length = (if outer.isEmpty then 1 else 0) ∧ r.deliver j start stop =
      { r with
        stack := .object opened ((key, j) :: members) key colon false :: outer
        want := .more
        marks := marks ++ r.marks } := by
  refine ⟨if outer.isEmpty then [⟨colon, start, stop⟩] else [], by split <;> rfl, ?_⟩
  rw [deliver, stack]
  dsimp only
  rw [if_neg Bool.false_ne_true]
  split <;> rfl

theorem step_close_list (sound : r.fault = none) (stack : r.stack = .list opened items :: outer)
    (want : r.want = .more ∨ r.want = .firstItem) (index : Nat) :
    r.step strict ⟨.sign .closeList, false, index, index + 1⟩ =
      { r with stack := outer }.deliver (.arr items.reverse) opened (index + 1) := by
  rcases want with want | want <;> simp [step, sound, want, takeMore, stack, close]

theorem step_close_object (sound : r.fault = none)
    (stack : r.stack = .object opened members key colon false :: outer)
    (want : r.want = .more ∨ r.want = .firstKey) (index : Nat) :
    r.step strict ⟨.sign .closeObject, false, index, index + 1⟩ =
      { r with stack := outer }.deliver (.obj members.reverse) opened (index + 1) := by
  rcases want with want | want <;> simp [step, sound, want, takeMore, stack, close]

theorem step_comma_list (sound : r.fault = none) (stack : r.stack = .list opened items :: outer)
    (want : r.want = .more) (index : Nat) :
    r.step strict ⟨.sign .comma, false, index, index + 1⟩ = { r with want := .item } := by
  simp [step, sound, want, takeMore, stack]

theorem step_comma_object (sound : r.fault = none)
    (stack : r.stack = .object opened members key colon false :: outer)
    (want : r.want = .more) (index : Nat) :
    r.step strict ⟨.sign .comma, false, index, index + 1⟩ = { r with want := .key } := by
  simp [step, sound, want, takeMore, stack]

theorem step_key (sound : r.fault = none)
    (stack : r.stack = .object opened members key colon false :: outer)
    (want : r.want = .firstKey ∨ r.want = .key) (name : String) (start stop : Nat) :
    r.step strict ⟨.value (.str name), true, start, stop⟩ =
      { r with stack := .object opened members name colon false :: outer, want := .colon } := by
  rcases want with want | want <;> simp [step, sound, want, takeKey, stack]

theorem step_colon (sound : r.fault = none)
    (stack : r.stack = .object opened members key colon false :: outer)
    (want : r.want = .colon) (index : Nat) :
    r.step strict ⟨.sign .colon, false, index, index + 1⟩ =
      { r with stack := .object opened members key index false :: outer, want := .value } := by
  simp [step, sound, want, takeColon, stack]

/-! ### Texts of values -/

/-- A machine that needs a value, with `depth` more containers to open, takes a text as a value. -/
def Takes (strict : Bool) (depth : Nat) (j : Json) (cs : List Char) : Prop :=
  ∀ (r : Reader) (index : Nat) (rest : List Char), r.Ready →
    r.stack.length + depth ≤ depthLimit → Apart rest →
    ∃ marks start stop next, marks.length = (if r.stack.isEmpty then parts j else 0) ∧
      r.after strict index (cs ++ rest) =
        ({ r with marks := marks ++ r.marks }.deliver j start stop).after strict next rest

/-- A machine that needs an item takes a text and the bracket behind it as the rest of the list. -/
def TakesItems (strict : Bool) (depth : Nat) (todo : List Json) (cs : List Char) : Prop :=
  ∀ (r : Reader) (opened : Nat) (items : List Json) (outer : List Frame) (index : Nat)
    (rest : List Char), r.Ready → r.stack = .list opened items :: outer →
    outer.length + 1 + depth ≤ depthLimit →
    ∃ marks stop, marks.length = (if outer.isEmpty then todo.length else 0) ∧
      r.after strict index (cs ++ ']' :: rest) =
        ({ r with stack := outer, want := .more, marks := marks ++ r.marks }.deliver
          (.arr (items.reverse ++ todo)) opened stop).after strict stop rest

/-- A machine that needs a name takes a text and the brace behind it as the rest of the object. -/
def TakesMembers (strict : Bool) (depth : Nat) (todo : List (String × Json)) (cs : List Char) :
    Prop :=
  ∀ (r : Reader) (opened : Nat) (members : List (String × Json)) (key : String) (colon : Nat)
    (outer : List Frame) (index : Nat) (rest : List Char), r.fault = none →
    (r.want = .firstKey ∨ r.want = .key) →
    r.stack = .object opened members key colon false :: outer →
    outer.length + 1 + depth ≤ depthLimit →
    ∃ marks stop, marks.length = (if outer.isEmpty then todo.length else 0) ∧
      r.after strict index (cs ++ '}' :: rest) =
        ({ r with stack := outer, want := .more, marks := marks ++ r.marks }.deliver
          (.obj (members.reverse ++ todo)) opened stop).after strict stop rest

variable {depth : Nat} {j : Json} {cs : List Char}

/-- A value that is one lexeme. -/
theorem takes_of_lexeme (simple : parts j = 0)
    (reads : ∀ index rest, Apart rest → ∃ l, l.kind = .value j ∧
      lexemesAt index (cs ++ rest) = l :: lexemesAt l.stop rest) : Takes strict depth j cs := by
  intro r index rest ready _ apart
  obtain ⟨l, hkind, hread⟩ := reads index rest apart
  refine ⟨[], l.start, l.stop, l.stop, by rw [simple]; split <;> rfl, ?_⟩
  rw [after_of_lexemesAt hread, step_value ready hkind, List.nil_append]

theorem takes_padded {before behind : List Char} (hbefore : Blank before) (hbehind : Blank behind)
    (takes : Takes strict depth j cs) : Takes strict depth j (before ++ cs ++ behind) := by
  intro r index rest ready room apart
  obtain ⟨index', hgap⟩ := after_blank strict r hbefore index (cs ++ (behind ++ rest))
  obtain ⟨marks, start, stop, next, hmarks, hread⟩ :=
    takes r index' (behind ++ rest) ready room (apart_blank hbehind apart)
  obtain ⟨next', hrest⟩ := after_blank strict
    ({ r with marks := marks ++ r.marks }.deliver j start stop) hbehind next rest
  refine ⟨marks, start, stop, next', hmarks, ?_⟩
  rw [List.append_assoc, List.append_assoc, hgap, hread, hrest]

/-! ### Lists -/

/-- An item of a list. -/
theorem after_item (takes : Takes strict depth j cs) (ready : r.Ready)
    (stack : r.stack = .list opened items :: outer) (room : outer.length + 1 + depth ≤ depthLimit)
    (index : Nat) {rest : List Char} (apart : Apart rest) :
    ∃ marks next, marks.length = (if outer.isEmpty then 1 else 0) ∧
      r.after strict index (cs ++ rest) =
        { r with
          stack := .list opened (j :: items) :: outer
          want := .more
          marks := marks ++ r.marks }.after strict next rest := by
  obtain ⟨marks, start, stop, next, hnone, hread⟩ :=
    takes r index rest ready (by rwa [stack]) apart
  obtain rfl : marks = [] := by simpa [stack] using hnone
  obtain ⟨marks, hmarks, hdeliver⟩ := deliver_list stack j start stop
  exact ⟨marks, next, hmarks, by rw [hread, List.nil_append, hdeliver]⟩

theorem takesItems_last (takes : Takes strict depth j cs) : TakesItems strict depth [j] cs := by
  intro r opened items outer index rest ready stack room
  obtain ⟨marks, next, hmarks, hread⟩ := after_item takes ready stack room index
    (apart_cons (c := ']') (by decide) rest)
  refine ⟨marks, next + 1, hmarks, ?_⟩
  rw [hread, after_sign rfl, step_close_list (by exact ready.sound) rfl (.inl rfl),
    List.reverse_cons]

theorem takesItems_more {todo : List Json} {ds : List Char} (takes : Takes strict depth j cs)
    (more : TakesItems strict depth todo ds) :
    TakesItems strict depth (j :: todo) (cs ++ ',' :: ds) := by
  intro r opened items outer index rest ready stack room
  obtain ⟨marks, next, hmarks, hread⟩ := after_item takes ready stack room index
    (apart_cons (c := ',') (by decide) (ds ++ ']' :: rest))
  obtain ⟨marks', stop, hmarks', hrest⟩ := more
    { r with stack := .list opened (j :: items) :: outer, want := .item, marks := marks ++ r.marks }
    opened (j :: items) outer (next + 1) rest ⟨ready.sound, .inr (.inr rfl)⟩ rfl room
  refine ⟨marks' ++ marks, stop, ?_, ?_⟩
  · rw [List.length_append, hmarks, hmarks']
    split <;> rfl
  · rw [List.append_assoc, List.cons_append, hread, after_sign rfl,
      step_comma_list (by exact ready.sound) rfl rfl, hrest, List.append_assoc, List.reverse_cons,
      List.append_assoc]
    rfl

theorem takes_emptyList {gap : List Char} (blank : Blank gap) :
    Takes strict (depth + 1) (.arr []) ('[' :: (gap ++ [']'])) := by
  intro r index rest ready room _
  obtain ⟨next, hgap⟩ := after_blank strict
    ({ r with stack := .list index [] :: r.stack, want := .firstItem }) blank (index + 1)
    (']' :: rest)
  refine ⟨[], index, next + 1, next + 1, by simp [parts], ?_⟩
  rw [List.cons_append, List.append_assoc, after_openList ready (by omega) index,
    List.singleton_append, hgap, after_sign rfl,
    step_close_list (by exact ready.sound) rfl (.inr rfl), List.nil_append]
  exact congrArg (after strict · _ rest) (deliver_want r .firstItem _ _ _)

theorem takes_list {items : List Json} (takes : TakesItems strict depth items cs) :
    Takes strict (depth + 1) (.arr items) ('[' :: (cs ++ [']'])) := by
  intro r index rest ready room _
  obtain ⟨marks, stop, hmarks, hread⟩ :=
    takes { r with stack := .list index [] :: r.stack, want := .firstItem } index [] r.stack
      (index + 1) rest ⟨ready.sound, .inr (.inl rfl)⟩ rfl (by omega)
  refine ⟨marks, index, stop, stop, hmarks, ?_⟩
  rw [List.cons_append, List.append_assoc, after_openList ready (by omega) index,
    List.singleton_append, hread]
  exact congrArg (after strict · stop rest)
    (deliver_want { r with marks := marks ++ r.marks } .more _ _ _)

/-! ### Objects -/

/-- A machine that needs a name takes a text and the colon behind it as the name. -/
def TakesName (strict : Bool) (name : String) (ns : List Char) : Prop :=
  ∀ ⦃r : Reader⦄ ⦃opened : Nat⦄ ⦃members : List (String × Json)⦄ ⦃key : String⦄ ⦃colon : Nat⦄
    ⦃outer : List Frame⦄, r.fault = none → (r.want = .firstKey ∨ r.want = .key) →
    r.stack = .object opened members key colon false :: outer → ∀ (index : Nat) (cs : List Char),
    ∃ place, r.after strict index (ns ++ ':' :: cs) =
      { r with stack := .object opened members name place false :: outer, want := .value }.after
        strict (place + 1) cs

theorem takesName_of_named {name : List Piece} {ns : List Char} (named : Named name ns)
    (readable : (text? name).isSome = true) : TakesName strict (nameOf name) ns := by
  intro r opened members key colon outer sound want stack index cs
  obtain ⟨before, quoted, behind, hbefore, hquotes, hbehind, rfl⟩ := named
  obtain ⟨start, hgap⟩ := after_blank strict r hbefore index
    ('"' :: (quoted ++ '"' :: (behind ++ ':' :: cs)))
  obtain ⟨stop, hname⟩ := lexemesAt_text hquotes readable start (behind ++ ':' :: cs)
  obtain ⟨place, hrest⟩ := after_blank strict
    ({ r with stack := .object opened members (nameOf name) colon false :: outer, want := .colon })
    hbehind stop (':' :: cs)
  refine ⟨place, ?_⟩
  rw [List.append_assoc, List.cons_append, List.append_assoc, List.cons_append, hgap,
    after_of_lexemesAt hname, step_key sound stack want, hrest, after_sign rfl,
    step_colon (by exact sound) rfl rfl]

/-- A member of an object: its name, the colon and its value. -/
theorem after_member {name : String} {ns : List Char} (named : TakesName strict name ns)
    (takes : Takes strict depth j cs) (sound : r.fault = none)
    (want : r.want = .firstKey ∨ r.want = .key)
    (stack : r.stack = .object opened members key colon false :: outer)
    (room : outer.length + 1 + depth ≤ depthLimit) (index : Nat) {rest : List Char}
    (apart : Apart rest) :
    ∃ marks place next, marks.length = (if outer.isEmpty then 1 else 0) ∧
      r.after strict index (ns ++ ':' :: (cs ++ rest)) =
        { r with
          stack := .object opened ((name, j) :: members) name place false :: outer
          want := .more
          marks := marks ++ r.marks }.after strict next rest := by
  obtain ⟨place, hname⟩ := named sound want stack index (cs ++ rest)
  obtain ⟨marks, start, stop, next, hnone, hread⟩ := takes
    { r with stack := .object opened members name place false :: outer, want := .value }
    (place + 1) rest ⟨sound, .inl rfl⟩ room apart
  obtain rfl : marks = [] := by simpa using hnone
  obtain ⟨marks, hmarks, hdeliver⟩ := deliver_object (r := { r with
    stack := .object opened members name place false :: outer, want := .value }) rfl j start stop
  refine ⟨marks, place, next, hmarks, ?_⟩
  rw [hname, hread, List.nil_append, hdeliver]

theorem takesMembers_last {name : String} {ns : List Char} (named : TakesName strict name ns)
    (takes : Takes strict depth j cs) :
    TakesMembers strict depth [(name, j)] (ns ++ ':' :: cs) := by
  intro r opened members key colon outer index rest sound want stack room
  obtain ⟨marks, place, next, hmarks, hread⟩ := after_member named takes sound want stack room index
    (apart_cons (c := '}') (by decide) rest)
  refine ⟨marks, next + 1, hmarks, ?_⟩
  rw [List.append_assoc, List.cons_append, hread, after_sign rfl,
    step_close_object (by exact sound) rfl (.inl rfl), List.reverse_cons]

theorem takesMembers_more {name : String} {todo : List (String × Json)} {ns ds : List Char}
    (named : TakesName strict name ns) (takes : Takes strict depth j cs)
    (more : TakesMembers strict depth todo ds) :
    TakesMembers strict depth ((name, j) :: todo) (ns ++ ':' :: (cs ++ ',' :: ds)) := by
  intro r opened members key colon outer index rest sound want stack room
  obtain ⟨marks, place, next, hmarks, hread⟩ := after_member named takes sound want stack room index
    (apart_cons (c := ',') (by decide) (ds ++ '}' :: rest))
  obtain ⟨marks', stop, hmarks', hrest⟩ := more
    { r with
      stack := .object opened ((name, j) :: members) name place false :: outer
      want := .key
      marks := marks ++ r.marks }
    opened ((name, j) :: members) name place outer (next + 1) rest sound (.inr rfl) rfl room
  refine ⟨marks' ++ marks, stop, ?_, ?_⟩
  · rw [List.length_append, hmarks, hmarks']
    split <;> rfl
  · rw [List.append_assoc, List.cons_append, List.append_assoc, List.cons_append, hread,
      after_sign rfl, step_comma_object (by exact sound) rfl rfl, hrest, List.append_assoc,
      List.reverse_cons, List.append_assoc]
    rfl

theorem takes_emptyObject {gap : List Char} (blank : Blank gap) :
    Takes strict (depth + 1) (.obj []) ('{' :: (gap ++ ['}'])) := by
  intro r index rest ready room _
  obtain ⟨next, hgap⟩ := after_blank strict
    ({ r with stack := .object index [] "" index false :: r.stack, want := .firstKey }) blank
    (index + 1) ('}' :: rest)
  refine ⟨[], index, next + 1, next + 1, by simp [parts], ?_⟩
  rw [List.cons_append, List.append_assoc, after_openObject ready (by omega) index,
    List.singleton_append, hgap, after_sign rfl,
    step_close_object (by exact ready.sound) rfl (.inr rfl), List.nil_append]
  exact congrArg (after strict · _ rest) (deliver_want r .firstKey _ _ _)

theorem takes_object {members : List (String × Json)}
    (takes : TakesMembers strict depth members cs) :
    Takes strict (depth + 1) (.obj members) ('{' :: (cs ++ ['}'])) := by
  intro r index rest ready room _
  obtain ⟨marks, stop, hmarks, hread⟩ :=
    takes { r with stack := .object index [] "" index false :: r.stack, want := .firstKey } index
      [] "" index r.stack (index + 1) rest ready.sound (.inl rfl) rfl (by omega)
  refine ⟨marks, index, stop, stop, hmarks, ?_⟩
  rw [List.cons_append, List.append_assoc, after_openObject ready (by omega) index,
    List.singleton_append, hread]
  exact congrArg (after strict · stop rest)
    (deliver_want { r with marks := marks ++ r.marks } .more _ _ _)

/-! ### Every phrase -/

/-- What a machine takes a text for, whatever stands in it. -/
def TakesPhrase (strict : Bool) (depth : Nat) : Phrase → List Char → Prop
  | .value j => Takes strict depth j
  | .items items => TakesItems strict depth items
  | .members members => TakesMembers strict depth members

theorem parts_json (n : Numeral) : parts n.json = 0 := by
  rw [Numeral.json]
  split <;> rfl

/-- A text is taken for what it spells. -/
theorem takes_of_spells {phrase : Phrase} (spelled : Spells Literal.Readable depth phrase cs) :
    TakesPhrase strict depth phrase cs := by
  induction spelled with
  | null =>
    refine takes_of_lexeme rfl fun index rest _ => ?_
    obtain ⟨stop, hread⟩ := lexemesAt_word (.inl ⟨rfl, rfl, rfl⟩) index rest
    exact ⟨_, rfl, hread⟩
  | bool b =>
    refine takes_of_lexeme rfl fun index rest _ => ?_
    cases b with
    | true =>
      obtain ⟨stop, hread⟩ := lexemesAt_word (.inr (.inl ⟨rfl, rfl, rfl⟩)) index rest
      exact ⟨_, rfl, hread⟩
    | false =>
      obtain ⟨stop, hread⟩ := lexemesAt_word (.inr (.inr ⟨rfl, rfl, rfl⟩)) index rest
      exact ⟨_, rfl, hread⟩
  | num spelled readable =>
    refine takes_of_lexeme (parts_json _) fun index rest apart => ?_
    obtain ⟨stop, hread⟩ := lexemesAt_numeral spelled readable apart index
    exact ⟨_, rfl, hread⟩
  | text quotes readable =>
    rw [textJson_of_isSome readable]
    refine takes_of_lexeme rfl fun index rest _ => ?_
    obtain ⟨stop, hread⟩ := lexemesAt_text quotes readable index rest
    exact ⟨_, rfl, by rwa [List.cons_append, List.append_assoc]⟩
  | padded hbefore hbehind _ ih => exact takes_padded hbefore hbehind ih
  | emptyList blank => exact takes_emptyList blank
  | list _ ih => exact takes_list ih
  | emptyObject blank => exact takes_emptyObject blank
  | object _ ih => exact takes_object ih
  | lastItem _ ih => exact takesItems_last ih
  | item _ _ first more => exact takesItems_more first more
  | lastMember named readable _ ih => exact takesMembers_last (takesName_of_named named readable) ih
  | member named readable _ _ first more =>
    exact takesMembers_more (takesName_of_named named readable) first more

/-! ### Literals without a value -/

/-- A machine that has come to a fault stays there. -/
theorem after_of_fault (fault : r.fault.isSome = true) (index : Nat) (cs : List Char) :
    r.after strict index cs = r := by
  rw [after]
  induction lexemesAt index cs with
  | nil => rfl
  | cons l ls ih =>
    have hstep : r.step strict l = r := if_pos fault
    rw [List.foldl_cons, hstep, ih]

/-- A strict machine that stands before a phrase, with `depth` more containers to open. -/
def Begins (depth : Nat) (r : Reader) : Phrase → Prop
  | .value _ => r.Ready ∧ r.stack.length + depth ≤ depthLimit
  | .items _ => r.Ready ∧ ∃ opened items outer,
      r.stack = .list opened items :: outer ∧ outer.length + 1 + depth ≤ depthLimit
  | .members _ => r.fault = none ∧ (r.want = .firstKey ∨ r.want = .key) ∧
      ∃ opened members key colon outer, r.stack = .object opened members key colon false :: outer ∧
        outer.length + 1 + depth ≤ depthLimit

/-- What may stand behind a phrase. -/
def Follows (rest : List Char) : Phrase → Prop
  | .value _ => Apart rest
  | .items _ => ∃ tail, rest = ']' :: tail
  | .members _ => ∃ tail, rest = '}' :: tail

/-- A strict machine comes to a fault in a text. -/
def Fails (depth : Nat) (phrase : Phrase) (cs : List Char) : Prop :=
  ∀ (r : Reader) (index : Nat) (rest : List Char), r.Begins depth phrase → Follows rest phrase →
    (r.after true index (cs ++ rest)).fault.isSome = true

/-- A literal of no use where a value is needed. -/
theorem fails_of_lexeme (reads : ∀ index rest, Apart rest → ∃ fault i quoted stop,
    lexemesAt index (cs ++ rest) =
      ⟨.unusable fault i, quoted, index, stop⟩ :: lexemesAt stop rest) :
    Fails depth (.value j) cs := by
  rintro r index rest ⟨ready, -⟩ apart
  obtain ⟨fault, i, quoted, stop, hread⟩ := reads index rest apart
  have hfault : (r.step true ⟨.unusable fault i, quoted, index, stop⟩).fault.isSome := by
    rcases ready with ⟨hsound, hwant | hwant | hwant⟩ <;>
      simp [step, hsound, hwant, takeValue, fail]
  rwa [after_of_lexemesAt hread, after_of_fault hfault]

/-- A literal of no use where a name is needed. -/
theorem fails_name {name : List Piece} {ns : List Char} (named : Named name ns)
    (unreadable : ¬ (text? name).isSome = true) (members : List (String × Json)) :
    Fails depth (.members members) (ns ++ ':' :: cs) := by
  rintro r index _ ⟨sound, want, opened, done, key, colon, outer, stack, -⟩ ⟨rest, rfl⟩
  obtain ⟨before, quoted, behind, hbefore, hquotes, -, rfl⟩ := named
  obtain ⟨start, hgap⟩ := after_blank true r hbefore index
    ('"' :: (quoted ++ '"' :: (behind ++ ':' :: (cs ++ '}' :: rest))))
  obtain ⟨fault, i, stop, hread⟩ :=
    lexemesAt_lone hquotes unreadable start (behind ++ ':' :: (cs ++ '}' :: rest))
  have hfault : (r.step true ⟨.unusable fault i, true, start, stop⟩).fault.isSome := by
    rcases want with want | want <;> simp [step, sound, want, takeKey, stack, fail]
  rw [List.append_assoc, List.append_assoc, List.cons_append, List.append_assoc, List.cons_append,
    List.cons_append, hgap, after_of_lexemesAt hread, after_of_fault hfault]
  exact hfault

theorem fails_padded {before behind : List Char} (hbefore : Blank before) (hbehind : Blank behind)
    (fails : Fails depth (.value j) cs) : Fails depth (.value j) (before ++ cs ++ behind) := by
  intro r index rest begins apart
  obtain ⟨index', hgap⟩ := after_blank true r hbefore index (cs ++ (behind ++ rest))
  rw [List.append_assoc, List.append_assoc, hgap]
  exact fails r index' (behind ++ rest) begins (apart_blank hbehind apart)

theorem fails_list {items : List Json} (fails : Fails depth (.items items) cs) :
    Fails (depth + 1) (.value (.arr items)) ('[' :: (cs ++ [']'])) := by
  rintro r index rest ⟨ready, room⟩ -
  rw [List.cons_append, List.append_assoc, after_openList ready (by omega) index]
  exact fails _ _ _ ⟨⟨ready.sound, .inr (.inl rfl)⟩, index, [], r.stack, rfl, by omega⟩ ⟨rest, rfl⟩

theorem fails_object {members : List (String × Json)} (fails : Fails depth (.members members) cs) :
    Fails (depth + 1) (.value (.obj members)) ('{' :: (cs ++ ['}'])) := by
  rintro r index rest ⟨ready, room⟩ -
  rw [List.cons_append, List.append_assoc, after_openObject ready (by omega) index]
  exact fails _ _ _ ⟨ready.sound, .inl rfl, index, [], "", index, r.stack, rfl, by omega⟩
    ⟨rest, rfl⟩

theorem fails_lastItem (fails : Fails depth (.value j) cs) : Fails depth (.items [j]) cs := by
  rintro r index _ ⟨ready, opened, items, outer, stack, room⟩ ⟨rest, rfl⟩
  exact fails r index _ ⟨ready, by rwa [stack]⟩ (apart_cons (c := ']') (by decide) rest)

/-- A fault may show in the first item or in one of those behind it. -/
theorem fails_item {items : List Json} {ds : List Char}
    (fails : Fails depth (.value j) cs ∨ Takes true depth j cs ∧ Fails depth (.items items) ds) :
    Fails depth (.items (j :: items)) (cs ++ ',' :: ds) := by
  rintro r index _ ⟨ready, opened, done, outer, stack, room⟩ ⟨rest, rfl⟩
  have happart : Apart (',' :: (ds ++ ']' :: rest)) := apart_cons (by decide) _
  rw [List.append_assoc, List.cons_append]
  rcases fails with fails | ⟨takes, fails⟩
  · exact fails r index _ ⟨ready, by rwa [stack]⟩ happart
  · obtain ⟨marks, next, -, hread⟩ := after_item takes ready stack room index happart
    rw [hread, after_sign rfl, step_comma_list (by exact ready.sound) rfl rfl]
    exact fails _ _ _ ⟨⟨ready.sound, .inr (.inr rfl)⟩, opened, j :: done, outer, rfl, room⟩
      ⟨rest, rfl⟩

theorem fails_lastMember {name : String} {ns : List Char} (named : TakesName true name ns)
    (fails : Fails depth (.value j) cs) : Fails depth (.members [(name, j)]) (ns ++ ':' :: cs) := by
  rintro r index _ ⟨sound, want, opened, done, key, colon, outer, stack, room⟩ ⟨rest, rfl⟩
  obtain ⟨place, hname⟩ := named sound want stack index (cs ++ '}' :: rest)
  rw [List.append_assoc, List.cons_append, hname]
  exact fails _ _ _ ⟨⟨sound, .inl rfl⟩, room⟩ (apart_cons (c := '}') (by decide) rest)

theorem fails_member {name : String} {members : List (String × Json)} {ns ds : List Char}
    (named : TakesName true name ns) (fails : Fails depth (.value j) cs ∨
      Takes true depth j cs ∧ Fails depth (.members members) ds) :
    Fails depth (.members ((name, j) :: members)) (ns ++ ':' :: (cs ++ ',' :: ds)) := by
  rintro r index _ ⟨sound, want, opened, done, key, colon, outer, stack, room⟩ ⟨rest, rfl⟩
  have happart : Apart (',' :: (ds ++ '}' :: rest)) := apart_cons (by decide) _
  rw [List.append_assoc, List.cons_append, List.append_assoc, List.cons_append]
  rcases fails with fails | ⟨takes, fails⟩
  · obtain ⟨place, hname⟩ := named sound want stack index (cs ++ ',' :: (ds ++ '}' :: rest))
    rw [hname]
    exact fails _ _ _ ⟨⟨sound, .inl rfl⟩, room⟩ happart
  · obtain ⟨marks, place, next, -, hread⟩ :=
      after_member named takes sound want stack room index happart
    rw [hread, after_sign rfl, step_comma_object (by exact sound) rfl rfl]
    exact fails _ _ _
      ⟨sound, .inr rfl, opened, (name, j) :: done, name, place, outer, rfl, room⟩ ⟨rest, rfl⟩

/-- In a text that is well formed, either every literal stands for something or a strict machine
comes to a fault. -/
theorem spells_or_fails {Allowed : Literal → Prop} {phrase : Phrase}
    (formed : Spells Allowed depth phrase cs) :
    Spells Literal.Readable depth phrase cs ∨ Fails depth phrase cs := by
  induction formed with
  | null => exact .inl .null
  | bool b => exact .inl (.bool b)
  | @num _ n _ spelled _ =>
    by_cases readable : n.Readable
    · exact .inl (.num spelled readable)
    · refine .inr (fails_of_lexeme fun index rest apart => ?_)
      obtain ⟨stop, hread⟩ := lexemesAt_unreadable spelled readable apart index
      exact ⟨_, _, _, stop, hread⟩
  | @text _ ps _ quotes _ =>
    by_cases readable : (text? ps).isSome = true
    · exact .inl (.text quotes readable)
    · refine .inr (fails_of_lexeme fun index rest _ => ?_)
      obtain ⟨fault, i, stop, hread⟩ := lexemesAt_lone quotes readable index rest
      exact ⟨fault, i, true, stop, by rwa [List.cons_append, List.append_assoc]⟩
  | padded hbefore hbehind _ ih =>
    exact ih.imp (.padded hbefore hbehind) (fails_padded hbefore hbehind)
  | emptyList blank => exact .inl (.emptyList blank)
  | list _ ih => exact ih.imp .list fails_list
  | emptyObject blank => exact .inl (.emptyObject blank)
  | object _ ih => exact ih.imp .object fails_object
  | lastItem _ ih => exact ih.imp .lastItem fails_lastItem
  | item _ _ first more =>
    rcases first with first | first
    · exact more.imp (.item first) fun fails => fails_item (.inr ⟨takes_of_spells first, fails⟩)
    · exact .inr (fails_item (.inl first))
  | @lastMember _ name _ _ _ named _ _ ih =>
    by_cases readable : (text? name).isSome = true
    · exact ih.imp (.lastMember named readable)
        (fails_lastMember (takesName_of_named named readable))
    · exact .inr (fails_name named readable _)
  | @member _ name _ _ _ _ _ named _ _ _ first more =>
    by_cases readable : (text? name).isSome = true
    · have htakes : TakesName true (nameOf name) _ := takesName_of_named named readable
      rcases first with first | first
      · exact more.imp (.member named readable first) fun fails =>
          fails_member htakes (.inr ⟨takes_of_spells first, fails⟩)
      · exact .inr (fails_member htakes (.inl first))
    · exact .inr (fails_name named readable _)

theorem document_fault (r : Reader) : r.document.fault = r.fault := by
  rw [document]
  split <;> rfl

end Reader

/-- The document of a text that spells a value is the value, with a mark for each of its parts. -/
theorem readText_spells {depth : Nat} {j : Json} {cs : List Char}
    (spelled : Spells Literal.Readable depth (.value j) cs) (shallow : depth ≤ depthLimit)
    (strict : Bool) :
    (readText strict cs).root = j ∧ (readText strict cs).fault = none ∧
      (readText strict cs).marks.length = parts j := by
  have hready : Reader.start.Ready := ⟨rfl, .inl rfl⟩
  have hroom : Reader.start.stack.length + depth ≤ depthLimit := by
    rwa [Reader.start, List.length_nil, Nat.zero_add]
  have htakes : Reader.Takes strict depth j cs := Reader.takes_of_spells spelled
  obtain ⟨marks, start, stop, next, hmarks, hread⟩ :=
    htakes Reader.start 0 [] hready hroom apart_nil
  have hdone : (lexemes cs).foldl (Reader.step strict) .start =
      ⟨[], .nothing, j, stop, marks ++ [], none, 0⟩ := by
    rw [List.append_nil] at hread
    exact hread
  rw [readText, hdone]
  refine ⟨rfl, rfl, ?_⟩
  calc (marks ++ []).reverse.length = marks.length := by
        rw [List.length_reverse, List.append_nil]
    _ = parts j := hmarks

/-- A well-formed text with a literal that has no value is at fault when it is read strictly. -/
theorem spells_of_readText {Allowed : Literal → Prop} {depth : Nat} {j : Json} {cs : List Char}
    (formed : Spells Allowed depth (.value j) cs) (shallow : depth ≤ depthLimit)
    (sound : (readText true cs).fault = none) :
    Spells Literal.Readable depth (.value j) cs := by
  refine (Reader.spells_or_fails formed).resolve_right fun fails => ?_
  have hbegins : Reader.start.Begins depth (.value j) :=
    ⟨⟨rfl, .inl rfl⟩, by rwa [Reader.start, List.length_nil, Nat.zero_add]⟩
  have hfails := fails Reader.start 0 [] hbegins apart_nil
  rw [List.append_nil] at hfails
  have hfault : ((lexemes cs).foldl (Reader.step true) .start).fault.isSome = true := hfails
  rw [readText, Reader.finish, if_pos hfault, Reader.document_fault] at sound
  rw [sound] at hfault
  exact nomatch hfault

end Agora.Json
