import Agora.Settings.Files
import Mathlib.Data.List.Induction

/-!
Which file is the nearest. Seen from the working directory, it is the one in the last directory on
the way from the root that has a file with the name; where no directory on the way has one, there
is none.
-/

namespace Agora.Settings.Host

variable {host : Host} {name content : String}

/-- A directory on the way from the root to the working directory has a file with a name, and none
of the directories behind it has. -/
def Nearest (host : Host) (name content : String) : Prop :=
  ∃ dir below, host.homeNames = dir ++ below ∧
    host.content? (dir ++ [name.toList]) = some content ∧
    ∀ inner, inner ≠ [] → inner <+: below → host.content? (dir ++ inner ++ [name.toList]) = none

/-- No directory on the way from the root to the working directory has a file with a name. -/
def Lacks (host : Host) (name : String) : Prop :=
  ∀ dir, dir <+: host.homeNames → host.content? (dir ++ [name.toList]) = none

theorem nearest?_concat (host : Host) (name : String) (dir : List (List Char)) (n : List Char) :
    host.nearest? name (dir ++ [n]).reverse =
      (host.content? (dir ++ [n] ++ [name.toList])).or (host.nearest? name dir.reverse) := by
  rw [List.reverse_append, List.reverse_singleton, List.singleton_append, nearest?,
    List.reverse_cons, List.reverse_cons, List.reverse_reverse]

theorem nearest?_of_content {dir : List (List Char)}
    (h : host.content? (dir ++ [name.toList]) = some content) :
    host.nearest? name dir.reverse = some content := by
  rcases List.eq_nil_or_concat dir with rfl | ⟨dir, n, rfl⟩
  · exact h
  · rw [List.concat_eq_append] at h ⊢
    rw [nearest?_concat, h, Option.some_or]

theorem nearest?_append {dir below : List (List Char)}
    (none : ∀ inner, inner ≠ [] → inner <+: below →
      host.content? (dir ++ inner ++ [name.toList]) = .none) :
    host.nearest? name (dir ++ below).reverse = host.nearest? name dir.reverse := by
  induction below using List.reverseRecOn with
  | nil => rw [List.append_nil]
  | append_singleton below n ih =>
    have hlast := none (below ++ [n]) (List.append_ne_nil_of_right_ne_nil _ (List.cons_ne_nil _ _))
      (List.prefix_refl _)
    rw [← List.append_assoc] at hlast ⊢
    rw [nearest?_concat, hlast, Option.none_or]
    exact ih fun inner filled hinner => none inner filled (hinner.trans (List.prefix_append _ _))

theorem nearest?_of_nearest (h : host.Nearest name content) :
    host.nearest? name host.homeNames.reverse = some content := by
  obtain ⟨dir, below, hhome, hthere, hbelow⟩ := h
  rw [hhome, nearest?_append hbelow, nearest?_of_content hthere]

theorem nearest?_of_lacks (h : host.Lacks name) :
    host.nearest? name host.homeNames.reverse = none := by
  have hhome := @nearest?_append host name [] host.homeNames fun inner _ hinner => h inner hinner
  rw [List.nil_append] at hhome
  rw [hhome]
  exact h [] List.nil_prefix

end Agora.Settings.Host
