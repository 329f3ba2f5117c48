import Agora.Proofs.Events
import Agora.Proofs.Unbroken
import Mathlib.Data.List.Forall2

/-!
The exposition line by line. Everything in it but the communities' names is free of line feeds, so
a collector reads one line for each sample just when no name that was counted holds a line feed;
then the lines are, up to their order, those that the events tell of. A name with a line feed
breaks its sample into lines of the client's choosing.
-/

namespace Agora.Exposition

open Text Decimal

/-! ### Blocks -/

/-- The lines of a block. -/
def Block.lines (b : Block) : List String := b.header ++ b.samples

/-- The lines that some blocks make up: those of each block that has samples, and a last one. -/
def told (bs : List Block) : List String :=
  (bs.filter (!·.samples.isEmpty)).flatMap Block.lines ++ ["# EOF"]

theorem mem_told {bs : List Block} {b : Block} {line : String} (hb : b ∈ bs)
    (hline : line ∈ b.samples) : line ∈ told bs := by
  have hshown : b ∈ bs.filter (!·.samples.isEmpty) :=
    List.mem_filter.2 ⟨hb, by simpa using List.ne_nil_of_mem hline⟩
  exact List.mem_append_left _ (List.mem_flatMap.2 ⟨b, hshown, List.mem_append_right _ hline⟩)

/-- The block of a family that has one sample for each of some labels. -/
def series (name help : String) (measure : Measure) (tail label : String) (labels : List String)
    (value : String → Nat) : Block :=
  ⟨name, help, measure, labels.dedup.map fun l => labelled (name ++ tail) label l (text (value l))⟩

/-- The blocks that some events tell of. -/
def expectedBlocks (es : List Event) : List Block :=
  [counter "users" "Total number of registered users" (es.count .userRegistered),
    counter "posts" "Total number of posts created" (postLabels es).length,
    counter "comments" "Total number of comments created" (es.count .commentCreated),
    counter "votes" "Total number of votes recorded" (es.count .voteRecorded),
    counter "messages" "Total number of direct messages sent" (es.count .messageSent),
    series "subreddit_posts" "Number of posts per subreddit" .counter "_total" "subreddit"
      (postLabels es) (postLabels es).count,
    series "subreddit_members" "Number of members per subreddit" .gauge "" "subreddit"
      (memberLabels es) (membersShown es),
    series "errors" "Total number of failed requests" .counter "_total" "request"
      (errorLabels es) (errorLabels es).count,
    histogram "request_duration_seconds" "Request duration in seconds"
      (.ofNanos (durations es))]

/-- The lines that a collector is to read after some events. -/
def expected (es : List Event) : List String := told (expectedBlocks es)

/-- What the header of a block says of it. -/
def Block.title (b : Block) : String × String := (b.name, b.help)

/-- What the headers say, whatever was counted. -/
def titles : List (String × String) := (blocks .empty).map Block.title

theorem map_title_blocks (m : Metrics) : (blocks m).map Block.title = titles := by
  simp only [titles, blocks, List.map_cons, List.map_nil, Block.title, counter, family, histogram]

theorem map_title_expectedBlocks (es : List Event) :
    (expectedBlocks es).map Block.title = titles := by
  simp only [titles, blocks, expectedBlocks, List.map_cons, List.map_nil, Block.title, counter,
    family, series, histogram]

/-- Blocks that differ in the order of their samples at most. -/
structure Block.Alike (b b' : Block) : Prop where
  header : b.header = b'.header
  samples : b.samples.Perm b'.samples

theorem Block.Alike.refl (b : Block) : b.Alike b := ⟨rfl, .refl _⟩

theorem told_perm {bs bs' : List Block} (h : List.Forall₂ Block.Alike bs bs') :
    (told bs).Perm (told bs') := by
  refine List.Perm.append_right _ ?_
  induction h with
  | nil => exact .refl _
  | @cons b b' bs bs' alike _ ih =>
    have hempty : b.samples.isEmpty = b'.samples.isEmpty := by
      rw [Bool.eq_iff_iff, List.isEmpty_iff_length_eq_zero, List.isEmpty_iff_length_eq_zero,
        alike.samples.length_eq]
    rw [List.filter_cons, List.filter_cons, hempty]
    split
    · rw [List.flatMap_cons, List.flatMap_cons, Block.lines, Block.lines, alike.header]
      exact (alike.samples.append_left _).append ih
    · exact ih

theorem alike_series {t : Table Nat} {labels : List String} {value : String → Nat}
    (h : ∀ l, t.get? l = if l ∈ labels then some (value l) else none)
    (name help : String) (measure : Measure) (tail label : String) :
    (family name help measure tail label t).Alike
      (series name help measure tail label labels value) := by
  refine ⟨rfl, ?_⟩
  have hperm := (Table.entries_perm h).map fun e => labelled (name ++ tail) label e.1 (text e.2)
  rwa [List.map_map] at hperm

theorem alike_blocks {m : Metrics} {es : List Event} (h : m.Tells es) :
    List.Forall₂ Block.Alike (blocks m) (expectedBlocks es) := by
  simp only [blocks, expectedBlocks, h.users, h.posts, h.comments, h.votes, h.messages,
    h.durations]
  have hposts := fun l => (h.postsIn l).trans (Metrics.touched_count _ l)
  have herrors := fun l => (h.errors l).trans (Metrics.touched_count _ l)
  exact .cons (.refl _) <| .cons (.refl _) <| .cons (.refl _) <| .cons (.refl _) <|
    .cons (.refl _) <| .cons (alike_series hposts ..) <| .cons (alike_series h.membersOf ..) <|
    .cons (alike_series herrors ..) <| .cons (.refl _) .nil

/-! ### Line feeds in blocks -/

theorem unbroken_sample_iff {name value : String} :
    Unbroken (sample name value) ↔ Unbroken name ∧ Unbroken value := by
  have h₁ : Unbroken "reddit_" := by decide
  have h₂ : Unbroken " " := by decide
  simp [sample, h₁, h₂]

theorem unbroken_labelled_iff {name label value count : String} :
    Unbroken (labelled name label value count) ↔
      Unbroken name ∧ Unbroken label ∧ Unbroken value ∧ Unbroken count := by
  have h₁ : Unbroken "reddit_" := by decide
  have h₂ : Unbroken "\x7b" := by decide
  have h₃ : Unbroken "=\"" := by decide
  have h₄ : Unbroken "\"\x7d " := by decide
  simp [labelled, h₁, h₂, h₃, h₄, and_assoc]

theorem unbroken_counter {name help : String} (h : Unbroken name) (n : Nat) :
    ∀ line ∈ (counter name help n).samples, Unbroken line := by
  have hname : Unbroken (name ++ "_total") := unbroken_append.2 ⟨h, by decide⟩
  exact List.forall_mem_singleton.2 (unbroken_sample_iff.2 ⟨hname, unbroken_text n⟩)

theorem unbroken_series_iff {name help tail label : String} {measure : Measure}
    (hname : Unbroken name) (htail : Unbroken tail) (hlabel : Unbroken label)
    {labels : List String} {value : String → Nat} :
    (∀ line ∈ (series name help measure tail label labels value).samples, Unbroken line) ↔
      ∀ l ∈ labels, Unbroken l := by
  simp [series, unbroken_labelled_iff, hname, htail, hlabel, unbroken_text]

theorem unbroken_histogram {name help : String} (h : Unbroken name) (g : Histogram) :
    ∀ line ∈ (histogram name help g).samples, Unbroken line := by
  intro line hline
  simp only [histogram, List.mem_cons, List.mem_map] at hline
  obtain rfl | rfl | ⟨⟨bound, n⟩, hbucket, rfl⟩ := hline
  · have hsum : Unbroken (name ++ "_sum") := unbroken_append.2 ⟨h, by decide⟩
    exact unbroken_sample_iff.2 ⟨hsum, unbroken_secondsText _⟩
  · have hcount : Unbroken (name ++ "_count") := unbroken_append.2 ⟨h, by decide⟩
    exact unbroken_sample_iff.2 ⟨hcount, unbroken_text _⟩
  · have hname : Unbroken (name ++ "_bucket") := unbroken_append.2 ⟨h, by decide⟩
    have hbound : Unbroken bound := by
      obtain hseconds | hlast := List.mem_append.1 (List.of_mem_zip hbucket).1
      · obtain ⟨x, -, rfl⟩ := List.mem_map.1 hseconds
        exact unbroken_secondsText x
      · rw [List.mem_singleton.1 hlast]
        decide
    exact unbroken_labelled_iff.2 ⟨hname, by decide, hbound, unbroken_text n⟩

theorem unbroken_header {b : Block} (hname : Unbroken b.name) (hhelp : Unbroken b.help) :
    ∀ line ∈ b.header, Unbroken line := by
  have hmeasure : Unbroken b.measure.name := by cases b.measure <;> decide
  have h₁ : Unbroken "# HELP reddit_" := by decide
  have h₂ : Unbroken "# TYPE reddit_" := by decide
  have h₃ : Unbroken " " := by decide
  have h₄ : Unbroken "." := by decide
  simp [Block.header, hname, hhelp, hmeasure, h₁, h₂, h₃, h₄]

theorem unbroken_title {bs : List Block} (same : bs.map Block.title = titles) :
    ∀ b ∈ bs, Unbroken b.name ∧ Unbroken b.help := by
  have hclosed : ∀ t ∈ titles, Unbroken t.1 ∧ Unbroken t.2 := by decide
  intro b hb
  rw [← same] at hclosed
  exact hclosed _ (List.mem_map_of_mem hb)

theorem unbroken_told_iff {bs : List Block} (same : bs.map Block.title = titles) :
    (∀ line ∈ told bs, Unbroken line) ↔ ∀ b ∈ bs, ∀ line ∈ b.samples, Unbroken line := by
  constructor
  · exact fun h b hb line hline => h line (mem_told hb hline)
  · intro h line hline
    obtain hblocks | hend := List.mem_append.1 hline
    · obtain ⟨b, hb, hlines⟩ := List.mem_flatMap.1 hblocks
      have hmem := (List.mem_filter.1 hb).1
      obtain hheader | hsample := List.mem_append.1 hlines
      · obtain ⟨hname, hhelp⟩ := unbroken_title same b hmem
        exact unbroken_header hname hhelp line hheader
      · exact h b hmem line hsample
    · rw [List.mem_singleton.1 hend]
      decide

theorem unbroken_errorLabels (es : List Event) : ∀ l ∈ errorLabels es, Unbroken l := by
  intro l hl
  obtain ⟨e, -, he⟩ := List.mem_filterMap.1 hl
  cases e with
  | failed k =>
    obtain rfl := Option.some.inj he
    cases k <;> decide
  | _ => exact nomatch he

/-- The lines that some events tell of are lines just when the names of the communities are. -/
theorem unbroken_expected_iff (es : List Event) :
    (∀ line ∈ expected es, Unbroken line) ↔
      ∀ l ∈ postLabels es ++ memberLabels es, Unbroken l := by
  rw [expected, unbroken_told_iff (map_title_expectedBlocks es), List.forall_mem_append]
  simp only [expectedBlocks, List.forall_mem_cons]
  constructor
  · rintro ⟨-, -, -, -, -, posts, members, -⟩
    rw [unbroken_series_iff (by decide) (by decide) (by decide)] at posts members
    exact ⟨posts, members⟩
  · rintro ⟨posts, members⟩
    rw [unbroken_series_iff (by decide) (by decide) (by decide),
      unbroken_series_iff (by decide) (by decide) (by decide),
      unbroken_series_iff (by decide) (by decide) (by decide)]
    exact ⟨unbroken_counter (by decide) _, unbroken_counter (by decide) _,
      unbroken_counter (by decide) _, unbroken_counter (by decide) _,
      unbroken_counter (by decide) _, posts, members, unbroken_errorLabels es,
      unbroken_histogram (by decide) _, List.forall_mem_nil _⟩

/-! ### Beginnings of lines -/

/-- Whether a line begins with a text. -/
def opens (start line : String) : Bool := start.toList.isPrefixOf line.toList

/-- Two texts of which neither is the beginning of the other. -/
def Apart (s t : String) : Prop := opens s t = false ∧ opens t s = false

instance (s t : String) : Decidable (Apart s t) := inferInstanceAs (Decidable (_ ∧ _))

theorem opens_iff {start line : String} : opens start line ↔ start.toList <+: line.toList :=
  List.isPrefixOf_iff_prefix

theorem opens_append (start rest : String) : opens start (start ++ rest) := by
  rw [opens_iff, String.toList_append]
  exact List.prefix_append ..

theorem opens_longer {start line : String} (h : opens start line) (rest : String) :
    opens start (line ++ rest) := by
  rw [opens_iff, String.toList_append]
  exact (opens_iff.1 h).trans (List.prefix_append ..)

theorem not_opens_of_apart {s t line : String} (apart : Apart s t) (h : opens t line) :
    ¬ opens s line := by
  intro hs
  rw [opens_iff] at h hs
  obtain hst | hts := List.prefix_or_prefix_of_prefix hs h
  · exact Bool.false_ne_true (apart.1.symm.trans (opens_iff.2 hst))
  · exact Bool.false_ne_true (apart.2.symm.trans (opens_iff.2 hts))

theorem Apart.symm {s t : String} (h : Apart s t) : Apart t s := ⟨h.2, h.1⟩

/-- What the samples of a block begin with. -/
def Block.mark (b : Block) : String := "reddit_" ++ b.name

/-- Every sample of a block begins with its mark. -/
def Block.Marked (b : Block) : Prop := ∀ line ∈ b.samples, opens b.mark line

theorem opens_name (name tail : String) :
    opens ("reddit_" ++ name) ("reddit_" ++ (name ++ tail)) := by
  rw [← String.append_assoc]
  exact opens_append _ _

theorem opens_sample (name tail value : String) :
    opens ("reddit_" ++ name) (sample (name ++ tail) value) :=
  opens_longer (opens_longer (opens_name name tail) _) _

theorem opens_labelled (name tail label value count : String) :
    opens ("reddit_" ++ name) (labelled (name ++ tail) label value count) :=
  opens_longer (opens_longer (opens_longer (opens_longer (opens_longer (opens_longer
    (opens_name name tail) _) _) _) _) _) _

theorem marked_counter (name help : String) (n : Nat) : (counter name help n).Marked :=
  List.forall_mem_singleton.2 (opens_sample ..)

theorem marked_series (name help : String) (measure : Measure) (tail label : String)
    (labels : List String) (value : String → Nat) :
    (series name help measure tail label labels value).Marked := by
  intro line hline
  obtain ⟨l, -, rfl⟩ := List.mem_map.1 hline
  exact opens_labelled ..

theorem marked_histogram (name help : String) (h : Histogram) :
    (histogram name help h).Marked := by
  refine List.forall_mem_cons.2 ⟨opens_sample .., List.forall_mem_cons.2 ⟨opens_sample .., ?_⟩⟩
  intro line hline
  obtain ⟨b, -, rfl⟩ := List.mem_map.1 hline
  exact opens_labelled ..

theorem marked_of_mem_expectedBlocks {es : List Event} : ∀ b ∈ expectedBlocks es, b.Marked := by
  simp only [expectedBlocks, List.forall_mem_cons]
  have hcounter := marked_counter
  have hseries := marked_series
  exact ⟨hcounter _ _ _, hcounter _ _ _, hcounter _ _ _, hcounter _ _ _, hcounter _ _ _,
    hseries _ _ _ _ _ _ _, hseries _ _ _ _ _ _ _, hseries _ _ _ _ _ _ _, marked_histogram _ _ _,
    List.forall_mem_nil _⟩

theorem filter_of_apart {b : Block} {start : String} (marked : b.Marked)
    (apart : Apart start b.mark) : b.samples.filter (opens start) = [] :=
  List.filter_eq_nil_iff.2 fun line hline => not_opens_of_apart apart (marked line hline)

/-- Among blocks with marks apart, a mark finds the samples of its own block. -/
theorem flatMap_filter_mark {bs : List Block} (marked : ∀ b ∈ bs, b.Marked)
    (apart : bs.Pairwise fun b c => Apart b.mark c.mark) {b : Block} (hb : b ∈ bs) :
    (bs.flatMap fun c => c.samples.filter (opens b.mark)) = b.samples := by
  induction bs with
  | nil => exact absurd hb List.not_mem_nil
  | cons c bs ih =>
    rw [List.forall_mem_cons] at marked
    rw [List.pairwise_cons] at apart
    rw [List.flatMap_cons]
    obtain rfl | htail := List.mem_cons.1 hb
    · have hown : b.samples.filter (opens b.mark) = b.samples := List.filter_eq_self.2 marked.1
      have hothers : (bs.flatMap fun c => c.samples.filter (opens b.mark)) = [] :=
        List.flatMap_eq_nil_iff.2 fun c hc => filter_of_apart (marked.2 c hc) (apart.1 c hc)
      rw [hown, hothers, List.append_nil]
    · rw [filter_of_apart marked.1 (apart.1 b htail).symm, ih marked.2 apart.2 htail]
      rfl

theorem filter_header {start : String} (b : Block) (apart : Apart start "# ") :
    b.header.filter (opens start) = [] := by
  have hhelp : opens "# " ("# HELP reddit_" ++ b.name ++ " " ++ b.help ++ ".") :=
    opens_longer (opens_longer (opens_longer (opens_longer (by decide) _) _) _) _
  have htype : opens "# " ("# TYPE reddit_" ++ b.name ++ " " ++ b.measure.name) :=
    opens_longer (opens_longer (opens_longer (by decide) _) _) _
  simp [Block.header, not_opens_of_apart apart hhelp, not_opens_of_apart apart htype]

/-- A text that headers do not begin with is found in samples only. -/
theorem filter_told {start : String} (bs : List Block) (apart : Apart start "# ") :
    (told bs).filter (opens start) = bs.flatMap fun b => b.samples.filter (opens start) := by
  have hend : ["# EOF"].filter (opens start) = [] := by
    simp [not_opens_of_apart apart (show opens "# " "# EOF" by decide)]
  rw [told, List.filter_append, hend, List.append_nil]
  induction bs with
  | nil => rfl
  | cons b bs ih =>
    have hlines : b.lines.filter (opens start) = b.samples.filter (opens start) := by
      rw [Block.lines, List.filter_append, filter_header b apart, List.nil_append]
    rw [List.filter_cons, List.flatMap_cons, ← ih, ← hlines]
    split
    · rw [List.flatMap_cons, List.filter_append]
    · rename_i hempty
      have hnone : b.samples = [] := by simpa using hempty
      rw [hlines, hnone]
      rfl

/-- The counters without a label that some events tell of. -/
def counts (es : List Event) : List (String × Nat) :=
  [("users", es.count .userRegistered), ("posts", (postLabels es).length),
    ("comments", es.count .commentCreated), ("votes", es.count .voteRecorded),
    ("messages", es.count .messageSent)]

theorem counter_mem_expectedBlocks {es : List Event} {f : String × Nat} (hf : f ∈ counts es) :
    ∃ help, counter f.1 help f.2 ∈ expectedBlocks es := by
  simp only [counts, List.mem_cons, List.not_mem_nil, or_false] at hf
  obtain rfl | rfl | rfl | rfl | rfl := hf
  · exact ⟨_, .head _⟩
  · exact ⟨_, .tail _ (.head _)⟩
  · exact ⟨_, .tail _ (.tail _ (.head _))⟩
  · exact ⟨_, .tail _ (.tail _ (.tail _ (.head _)))⟩
  · exact ⟨_, .tail _ (.tail _ (.tail _ (.tail _ (.head _))))⟩

theorem pairwise_apart (es : List Event) :
    (expectedBlocks es).Pairwise fun b c => Apart b.mark c.mark := by
  have hclosed : titles.Pairwise fun t u => Apart ("reddit_" ++ t.1) ("reddit_" ++ u.1) := by
    decide
  rw [← map_title_expectedBlocks es, List.pairwise_map] at hclosed
  exact hclosed

theorem apart_header (rest : String) : Apart ("reddit_" ++ rest) "# " := by
  constructor <;> rw [opens, String.toList_append] <;> rfl

/-- The lines that begin with the mark of a block are its samples. -/
theorem filter_mark {es : List Event} {b : Block} (hb : b ∈ expectedBlocks es) :
    (expected es).filter (opens b.mark) = b.samples := by
  have hstart : Apart b.mark "# " := apart_header b.name
  rw [expected, filter_told _ hstart]
  exact flatMap_filter_mark marked_of_mem_expectedBlocks (pairwise_apart es) hb

theorem filter_opens_append (start rest : String) (lines : List String) :
    lines.filter (opens (start ++ rest)) =
      (lines.filter (opens start)).filter (opens (start ++ rest)) := by
  rw [List.filter_filter]
  refine List.filter_congr fun line _ => ?_
  rw [Bool.eq_iff_iff, Bool.and_eq_true]
  refine ⟨fun h => ⟨h, ?_⟩, And.left⟩
  rw [opens_iff, String.toList_append] at h
  exact opens_iff.2 ((List.prefix_append ..).trans h)

/-- Just one line begins as the sample of a counter does, and it tells the right number. -/
theorem filter_expected {es : List Event} {f : String × Nat} (hf : f ∈ counts es) :
    (expected es).filter (opens ("reddit_" ++ f.1 ++ "_total ")) =
      [sample (f.1 ++ "_total") (text f.2)] := by
  obtain ⟨help, hb⟩ := counter_mem_expectedBlocks hf
  have hmark := filter_mark hb
  have hsample : sample (f.1 ++ "_total") (text f.2) =
      "reddit_" ++ f.1 ++ "_total " ++ text f.2 := by
    simp [sample, String.append_assoc]
  rw [Block.mark, counter] at hmark
  rw [filter_opens_append, hmark, List.filter_singleton, hsample, opens_append]
  rfl

/-! ### Samples and their labels -/

/-- A number at the end of a text, behind a space, is found again. -/
theorem append_digits_inj {xs xs' : List Char} {n n' : Nat}
    (h : xs ++ ' ' :: digits n = xs' ++ ' ' :: digits n') : xs = xs' ∧ n = n' := by
  have hone (k : Nat) : pieces ' ' (digits k) = [digits k] :=
    pieces_of_not_mem fun hk => absurd (isDigit_of_mem_digits k _ hk) (by decide)
  have hpieces := congrArg (pieces ' ') h
  rw [pieces_append, pieces_append, hone, hone] at hpieces
  obtain rfl := digits_injective (List.singleton_inj.1 (List.append_inj' hpieces rfl).2)
  exact ⟨List.append_cancel_right h, rfl⟩

/-- Whatever its label holds, a sample is that of one label and one number. -/
theorem labelled_inj {name label l l' : String} {n n' : Nat}
    (h : labelled name label l (text n) = labelled name label l' (text n')) :
    l = l' ∧ n = n' := by
  have hsplit (value : String) (k : Nat) : (labelled name label value (text k)).toList =
      ("reddit_" ++ name ++ "\x7b" ++ label ++ "=\"" ++ (value ++ "\"\x7d")).toList ++
        ' ' :: digits k := by
    simp [labelled, text]
  have hchars := congrArg String.toList h
  rw [hsplit, hsplit] at hchars
  obtain ⟨htext, hnumber⟩ := append_digits_inj hchars
  have hvalue := String.append_right_inj _ |>.1 (String.toList_inj.1 htext)
  exact ⟨String.append_left_inj _ |>.1 hvalue, hnumber⟩

/-! ### What a collector reads -/

/-- The lines of the exposition of some metrics, a name with line feeds making several. -/
theorem linesOf_write (m : Metrics) :
    linesOf (write m) = (told (blocks m)).flatMap linesOf ++ [""] :=
  linesOf_join _

/-- The listing has the lines of the exposition in another order. -/
theorem lines_perm_listing (m : Metrics) : (linesOf (write m)).Perm (listing m ++ [""]) := by
  have hblock : ∀ b ∈ shown m, (b.lines.flatMap linesOf).Perm b.listing := by
    intro b hb
    obtain ⟨hname, hhelp⟩ :=
      unbroken_title (map_title_blocks m) b (List.mem_filter.1 hb).1
    rw [Block.lines, List.flatMap_append, flatMap_linesOf (unbroken_header hname hhelp)]
    refine List.Perm.append_left _ ?_
    split
    · exact .refl _
    · exact (List.mergeSort_perm _ _).symm
  have hend : ["# EOF"].flatMap linesOf = ["# EOF"] := by decide
  rw [linesOf_write, told, List.flatMap_append, hend, List.flatMap_assoc]
  exact ((List.Perm.flatMap_left _ hblock).append_right _).append_right _

theorem lines_perm_expected_iff (es : List Event) :
    (linesOf (write (Metrics.empty.recordAll es))).Perm (expected es ++ [""]) ↔
      ∀ l ∈ postLabels es ++ memberLabels es, Unbroken l := by
  have hperm : (told (blocks (Metrics.empty.recordAll es))).Perm (expected es) :=
    told_perm (alike_blocks (Metrics.tells_recordAll es))
  rw [linesOf_write, ← linesOf_join, linesOf_join_perm_iff hperm, ← unbroken_expected_iff]
  exact forall_congr' fun line => imp_congr_left hperm.mem_iff

/-- The lines of the exposition after some events are those that the events tell of, in some order,
just when no community that was counted has a line feed in its name; then one line for each counter
begins with its name, and tells the right number. Whatever the names hold, samples of a family with
different labels differ. -/
theorem lines_tell_events_iff (es : List Event) :
    let lines := linesOf (write (Metrics.empty.recordAll es))
    (lines.Perm (expected es ++ [""]) ↔ ∀ l ∈ postLabels es ++ memberLabels es, Unbroken l) ∧
    ((∀ l ∈ postLabels es ++ memberLabels es, Unbroken l) → ∀ f ∈ counts es,
      lines.filter (opens ("reddit_" ++ f.1 ++ "_total ")) =
        [sample (f.1 ++ "_total") (text f.2)]) ∧
    ∀ name label l l' n n',
      labelled name label l (text n) = labelled name label l' (text n') → l = l' ∧ n = n' := by
  intro lines
  refine ⟨lines_perm_expected_iff es, fun unbroken f hf => ?_, fun _ _ _ _ _ _ => labelled_inj⟩
  have hlast : [""].filter (opens ("reddit_" ++ f.1 ++ "_total ")) = [] := by
    simp [opens]
  have hfilter := ((lines_perm_expected_iff es).2 unbroken).filter
    (opens ("reddit_" ++ f.1 ++ "_total "))
  rw [List.filter_append, filter_expected hf, hlast] at hfilter
  exact List.perm_singleton.1 hfilter

theorem mem_linesOf_write {m : Metrics} {b : Block} {line part : String} (hb : b ∈ blocks m)
    (hline : line ∈ b.samples) (hpart : part ∈ linesOf line) : part ∈ linesOf (write m) := by
  rw [linesOf_write]
  exact List.mem_append_left _ (List.mem_flatMap.2 ⟨line, mem_told hb hline, hpart⟩)

/-- The name of a community that closes its own sample and goes on with another. -/
def forged : String := "s\"\x7d 1\nreddit_users_total 99\nx"

/-- A post in such a community is filed, and a collector then reads of users that there are not. -/
theorem forged_sample_is_read :
    let e := (Engine.empty.handle {} ⟨.epoch, 0⟩ (.createPost "p" forged "a" "t" "c")).1
    (e.store.posts.get? "p").map (·.community) = some forged ∧ e.metrics.users = 0 ∧
      "reddit_users_total 0" ∈ linesOf (write e.metrics) ∧
      "reddit_users_total 99" ∈ linesOf (write e.metrics) := by
  refine ⟨by decide, rfl, ?_, ?_⟩
  · have huser : "reddit_users_total 0" ∈ linesOf (sample "users_total" (text 0)) := by decide
    exact mem_linesOf_write (.head _) (.head _) huser
  · have hforged : "reddit_users_total 99" ∈
        linesOf (labelled "subreddit_posts_total" "subreddit" forged (text 1)) := by decide
    exact mem_linesOf_write (.tail _ <| .tail _ <| .tail _ <| .tail _ <| .tail _ <| .head _)
      (.head _) hforged

/-- Quotes and braces alone forge nothing. -/
theorem quoted_sample_is_not_read :
    (∀ l ∈ postLabels [.userRegistered, .postCreated "s\"\x7d 1"] ++
        memberLabels [.userRegistered, .postCreated "s\"\x7d 1"], Unbroken l) ∧
      (linesOf (write (Metrics.empty.recordAll
        [.userRegistered, .postCreated "s\"\x7d 1"]))).filter (opens "reddit_users_total ") =
          ["reddit_users_total 1"] := by
  obtain ⟨-, hcounts, -⟩ := lines_tell_events_iff [.userRegistered, .postCreated "s\"\x7d 1"]
  exact ⟨by decide, hcounts (by decide) ("users", 1) (.head _)⟩

end Agora.Exposition
