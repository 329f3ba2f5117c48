import Agora.Decimal.Approximate
import Agora.Decimal.Layout
import Agora.Metrics
import Agora.Text.Pieces

/-!
Metrics as text for a collector. Each metric is a block: a line that explains it, a line with its
type, and its samples. A family of counters that was never touched has no block. Labels stand
between quotes as they are, whatever characters they hold.
-/

namespace Agora.Exposition

open Agora.Text Agora.Decimal

/-- The types of metric. -/
inductive Measure where
  | counter | gauge | histogram
  deriving DecidableEq, Repr

/-- The name of a type. -/
def Measure.name : Measure → String
  | .counter => "counter"
  | .gauge => "gauge"
  | .histogram => "histogram"

/-- A metric as it is shown. -/
structure Block where
  name : String
  help : String
  measure : Measure
  samples : List String

/-- A sample without a label. -/
def sample (name value : String) : String := "reddit_" ++ name ++ " " ++ value

/-- A sample with a label. -/
def labelled (name label value count : String) : String :=
  "reddit_" ++ name ++ "\x7b" ++ label ++ "=\"" ++ value ++ "\"\x7d " ++ count

/-- The block of a single counter. -/
def counter (name help : String) (count : Nat) : Block :=
  ⟨name, help, .counter, [sample (name ++ "_total") (text count)]⟩

/-- The block of a family of numbers under labels; `tail` is what the type adds to the name. -/
def family (name help : String) (measure : Measure) (tail label : String) (t : Table Nat) : Block :=
  ⟨name, help, measure, t.entries.map fun e => labelled (name ++ tail) label e.1 (text e.2)⟩

/-- A number of seconds. -/
def secondsText (x : Float) : String := Layout.measure.write (approximate x)

/-- The block of the histogram. -/
def histogram (name help : String) (h : Histogram) : Block :=
  let bounds := Histogram.bounds.map secondsText ++ ["+Inf"]
  ⟨name, help, .histogram,
    sample (name ++ "_sum") (secondsText h.sum) :: sample (name ++ "_count") (text h.count) ::
      (bounds.zip h.cumulative).map fun b => labelled (name ++ "_bucket") "le" b.1 (text b.2)⟩

/-- All blocks. -/
def blocks (m : Metrics) : List Block :=
  [counter "users" "Total number of registered users" m.users,
    counter "posts" "Total number of posts created" m.posts,
    counter "comments" "Total number of comments created" m.comments,
    counter "votes" "Total number of votes recorded" m.votes,
    counter "messages" "Total number of direct messages sent" m.messages,
    family "subreddit_posts" "Number of posts per subreddit" .counter "_total" "subreddit"
      m.postsIn,
    family "subreddit_members" "Number of members per subreddit" .gauge "" "subreddit"
      m.membersOf,
    family "errors" "Total number of failed requests" .counter "_total" "request" m.errors,
    histogram "request_duration_seconds" "Request duration in seconds" m.durations]

/-- The two lines above the samples. -/
def Block.header (b : Block) : List String :=
  ["# HELP reddit_" ++ b.name ++ " " ++ b.help ++ ".",
    "# TYPE reddit_" ++ b.name ++ " " ++ b.measure.name]

/-- The blocks that have samples. -/
def shown (m : Metrics) : List Block := (blocks m).filter (!·.samples.isEmpty)

/-- The exposition of some metrics: lines, each with a line feed after it. -/
def write (m : Metrics) : String :=
  let lines := (shown m).flatMap (fun b => b.header ++ b.samples) ++ ["# EOF"]
  String.join (lines.map (· ++ "\n"))

/-- The lines of a text. -/
def linesOf (s : String) : List String := (pieces '\n' s.toList).map String.ofList

/-- The lines of a block. The order of samples within a family has no meaning, so the lines that
they make up are sorted; those of a histogram keep their order. -/
def Block.listing (b : Block) : List String :=
  let lines := b.samples.flatMap linesOf
  b.header ++ (if b.measure = .histogram then lines else lines.mergeSort fun x y => decide (x ≤ y))

/-- The exposition line by line, in an order that does not depend on that of the samples. -/
def listing (m : Metrics) : List String := (shown m).flatMap Block.listing ++ ["# EOF"]

/-- Whether a line tells how long requests took, and so differs from run to run. -/
def isTiming (line : String) : Bool :=
  let start := fun tail : String =>
    (stripStart? ("reddit_request_duration_seconds" ++ tail).toList line.toList).isSome
  start "_bucket" || start "_sum"

end Agora.Exposition
