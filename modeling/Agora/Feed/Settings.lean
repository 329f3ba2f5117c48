/-!
What the owner of a forum can choose about feeds.
-/

namespace Agora

/-- The age in hours below which posts do not score higher, and the number of posts in a feed when
a request does not say; without such a number a feed has all posts. -/
structure FeedSettings where
  floor : Float := 2.0
  defaultLimit : Option UInt64 := none
  deriving Repr

end Agora
