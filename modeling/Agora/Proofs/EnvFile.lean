import Agora.Proofs.Layer
import Agora.Settings.EnvFile

/-!
The file of variables. Its entries add to the environment what they assign, each if its name is not
there yet; so a name has the value that the environment gave it, or else its first assignment in
the file.
-/

namespace Agora

namespace Settings.EnvFile

/-- What an entry assigns, given what is known of other variables: nothing if it is empty or a
comment. An entry that is not well formed is none. -/
def assignment? (known : String → Option String) (entry : List Char) :
    Option (Option (String × String)) :=
  let cs := Text.trimStart (Text.trimEnd entry)
  if cs.isEmpty || cs.head? = some '#' then some none
  else do
    let (name, rest) ← splitEntry cs
    let value ← if rest.isEmpty || rest.head? = some '#' then some "" else readValue known rest
    some (some (name, value))

/-- What entries assign one after the other, up to the first that is not well formed. An entry sees
the variables of the environment and those assigned before it. -/
def assignments (env : List (String × String)) :
    List (Option (List Char)) → List (String × String)
  | some entry :: entries =>
    match assignment? (valueOf env) entry with
    | some (some a) => a :: assignments (env ++ [a]) entries
    | some none => assignments env entries
    | none => []
  | _ => []

/-- What a file of variables assigns. -/
def assigned (env : List (String × String)) (content : String) : List (String × String) :=
  let cs := content.toList
  let cs := if cs.head? = some '\uFEFF' then cs.drop 1 else cs
  assignments env (entriesFrom [] .plain (linesOf cs))

theorem valueOf_append (env more : List (String × String)) (name : String) :
    valueOf (env ++ more) name = (valueOf env name).or (valueOf more name) := by
  rw [valueOf, List.find?_append, valueOf, valueOf]
  cases env.find? (·.1 = name) <;> rfl

theorem valueOf_singleton_of_ne {a : String × String} {name : String} (h : a.1 ≠ name) :
    valueOf [a] name = none := by
  simp [valueOf, h]

theorem not_mem_of_valueOf {env : List (String × String)} {name : String}
    (h : valueOf env name = none) : name ∉ env.map (·.1) := by
  intro hmem
  obtain ⟨v, hv, rfl⟩ := List.mem_map.1 hmem
  have hnone := List.find?_eq_none.1 (Option.map_eq_none_iff.1 h) v hv
  exact hnone (decide_eq_true rfl)

/-- An assignment counts if its name is not there yet. -/
def assign (env : List (String × String)) (a : String × String) : List (String × String) :=
  if (valueOf env a.1).isSome then env else env ++ [a]

theorem addEntry_eq (env : List (String × String)) (entry : List Char) :
    addEntry env entry =
      (assignment? (valueOf env) entry).map fun o => o.elim env (assign env) := by
  unfold addEntry assignment? assign
  dsimp only
  split
  · rfl
  · cases splitEntry (Text.trimStart (Text.trimEnd entry)) with
    | none => rfl
    | some e =>
      simp only [Option.bind_eq_bind, Option.bind_some]
      split
      · simp only [Option.map_some, Option.elim_some]
        split <;> rfl
      · cases readValue (valueOf env) e.2 with
        | none => rfl
        | some value =>
          simp only [Option.bind_some, Option.map_some, Option.elim_some]
          split <;> rfl

theorem valueOf_assign (env : List (String × String)) (a : String × String) :
    valueOf (assign env a) = valueOf (env ++ [a]) := by
  funext name
  rw [assign]
  split
  · rename_i hsome
    rw [valueOf_append]
    by_cases hname : a.1 = name
    · rw [Option.or_of_isSome (hname ▸ hsome)]
    · rw [valueOf_singleton_of_ne hname, Option.or_none]
  · rfl

theorem namesOnce_assign {env : List (String × String)} (h : NamesOnce env) (a : String × String) :
    NamesOnce (assign env a) := by
  rw [assign]
  split
  · exact h
  · rename_i hnone
    have hfresh : a.1 ∉ env.map (·.1) := not_mem_of_valueOf (Option.not_isSome_iff_eq_none.1 hnone)
    rw [NamesOnce, List.map_append, List.nodup_append]
    refine ⟨h, List.nodup_singleton _, ?_⟩
    rintro x hx y hy rfl
    obtain rfl := List.mem_singleton.1 hy
    exact hfresh hx

/-- Entries add to what is known the first assignment of each name that is not. Assignments that do
not count are never looked at, so the environment with all of them knows the same. -/
theorem valueOf_addEntries (entries : List (Option (List Char))) {env more : List (String × String)}
    (h : valueOf env = valueOf more) :
    valueOf (addEntries env entries) = valueOf (more ++ assignments more entries) := by
  induction entries generalizing env more with
  | nil => rw [addEntries, assignments, List.append_nil, h]; all_goals exact nofun
  | cons entry entries ih =>
    cases entry with
    | none => rw [addEntries, assignments, List.append_nil, h] <;> exact nofun
    | some entry =>
      rw [addEntries, assignments, addEntry_eq, h]
      cases assignment? (valueOf more) entry with
      | none => simp only [Option.map_none, List.append_nil, h]
      | some o =>
        cases o with
        | none => exact ih h
        | some a =>
          have hassign : valueOf (assign env a) = valueOf (more ++ [a]) := by
            rw [valueOf_assign]
            funext name
            rw [valueOf_append, valueOf_append, h]
          simp only [Option.map_some, Option.elim_some]
          rw [ih hassign, List.append_assoc]
          rfl

theorem namesOnce_addEntries (entries : List (Option (List Char))) {env : List (String × String)}
    (h : NamesOnce env) : NamesOnce (addEntries env entries) := by
  induction entries generalizing env with
  | nil => rw [addEntries]; exacts [h, nofun]
  | cons entry entries ih =>
    cases entry with
    | none => rw [addEntries]; exacts [h, nofun]
    | some entry =>
      rw [addEntries, addEntry_eq]
      cases assignment? (valueOf env) entry with
      | none => exact h
      | some o =>
        cases o with
        | none => exact ih h
        | some a => exact ih (namesOnce_assign h a)

end Settings.EnvFile

end Agora
