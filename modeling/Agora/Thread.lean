import Agora.Entity

/-!
The comments on a post as threads. Comments are ordered by the time of their creation and then by
id. A comment that replies to nothing is a root; one that replies to a comment of the same set is
listed under it; one that replies to anything else is left out.
-/

namespace Agora

/-- Whether a comment comes no later than another one. -/
def Comment.notAfter (a b : Comment) : Bool :=
  a.created.key < b.created.key || (a.created.key = b.created.key && a.id ≤ b.id)

/-- Comments with the ids of the replies that each has. -/
structure Thread where
  roots : List Comment
  replies : Table (List String)

namespace Thread

/-- A reply noted under the id it replies to, behind those noted before. -/
def note (replies : Table (List String)) (parent id : String) : Table (List String) :=
  replies.insert parent ((replies.get? parent).getD [] ++ [id])

/-- The replies among some comments, as far as the ids they reply to are known. -/
def repliesAmong (known : IdSet) (comments : List Comment) : Table (List String) :=
  comments.foldl
    (fun replies c =>
      match c.repliesTo with
      | some parent => if known.has parent then note replies parent c.id else replies
      | none => replies)
    .empty

/-- The threads that some comments make up. -/
def build (comments : List Comment) : Thread :=
  let ordered := comments.mergeSort Comment.notAfter
  let known := IdSet.ofIds (ordered.map (·.id))
  ⟨ordered.filter Comment.isRoot, repliesAmong known ordered⟩

/-- The ids of the replies to a comment. -/
def childrenOf (t : Thread) (id : String) : List String := (t.replies.get? id).getD []

/-- The views of some roots. Replies are handed out once: a later root with the same id has none. -/
def viewsFrom : List Comment → Table (List String) → List CommentView
  | [], _ => []
  | root :: roots, replies =>
    root.view ((replies.get? root.id).getD []) :: viewsFrom roots (replies.erase root.id)

/-- The roots, each with the ids of the replies to it. -/
def views (t : Thread) : List CommentView := viewsFrom t.roots t.replies

end Thread

end Agora
