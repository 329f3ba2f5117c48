import Agora.Feed.Settings
import Agora.Text.Blank

/-!
The settings with which a forum is run, their defaults, and the rules that they must keep.
-/

namespace Agora

/-- The engine's name and the number of requests that may queue before senders wait. -/
structure MailboxSettings where
  name : String := "engine"
  capacity : UInt64 := 1024
  deriving DecidableEq, Repr

/-- Where clients are listened to. -/
structure ListenSettings where
  address : String := "127.0.0.1:8090"
  deriving DecidableEq, Repr

/-- Whether and where metrics are offered. -/
structure MetricsSettings where
  enabled : Bool := true
  address : String := "127.0.0.1:2112"
  deriving DecidableEq, Repr

/-- The forms in which a log is written. -/
inductive LogFormat where
  | pretty | json
  deriving DecidableEq, Repr

/-- The name of a log form. -/
def LogFormat.name : LogFormat → String
  | .pretty => "pretty"
  | .json => "json"

/-- How and what is logged. -/
structure LogSettings where
  format : LogFormat := .pretty
  filter : String := "info"
  deriving DecidableEq, Repr

/-- All settings, section by section. -/
structure Settings where
  mailbox : MailboxSettings := {}
  feed : FeedSettings := {}
  listen : ListenSettings := {}
  metrics : MetricsSettings := {}
  log : LogSettings := {}
  deriving Repr

namespace Settings

/-- The rules that settings must keep. -/
inductive Rule where
  | nameNotBlank | capacityNotZero | floorPositive
  deriving DecidableEq, Repr

/-- The words for a broken rule. -/
def Rule.message : Rule → String
  | .nameNotBlank => "engine.name must not be empty"
  | .capacityNotZero => "engine.mailbox_capacity must be at least 1"
  | .floorPositive => "feed.score_floor_hours must be positive"

/-- The first rule that settings break. -/
def broken? (s : Settings) : Option Rule :=
  if Text.isBlank s.mailbox.name then some .nameNotBlank
  else if s.mailbox.capacity = 0 then some .capacityNotZero
  else if s.feed.floor.isNaN || s.feed.floor ≤ 0.0 then some .floorPositive
  else none

end Settings

end Agora
