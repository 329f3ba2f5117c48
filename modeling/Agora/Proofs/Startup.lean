import Agora.Mailbox
import Agora.Proofs.Setting

/-!
Starting an engine with loaded settings. Loading gives only settings that keep the rules, and the
rules ask of the capacity no more than not to be zero. A mailbox has the capacity that the settings
say, so it can be made up to the largest capacity of a queue and no further.
-/

namespace Agora

open Settings

/-- A running mailbox that nobody has used yet. -/
def Mailbox.fresh (e : Engine) (room : Nat) : Mailbox := ⟨room, e, true, false, [], [], [], [], []⟩

theorem Mailbox.start?_of_ne_zero (e : Engine) {capacity : Nat} (h : capacity ≠ 0) :
    start? e capacity = if capacity ≤ capacityLimit then some (fresh e capacity) else none := by
  have hroom : roomFor capacity = capacity := Nat.max_eq_left (Nat.one_le_iff_ne_zero.2 h)
  rw [start?, hroom, fresh]

namespace Settings

theorem capacity_ne_zero {s : Settings} (accepted : s.broken? = none) :
    s.mailbox.capacity.toNat ≠ 0 := by
  have hvalid : s.mailbox.capacity ≠ 0 :=
    (Setting.broken?_eq_none_iff s).1 accepted .mailboxCapacity
  exact fun hzero => hvalid (UInt64.toNat_inj.1 hzero)

/-- The settings that a variable gives with the least capacity for which no queue can be made. -/
theorem exists_crowded :
    ∃ s, load {} [("RUSTY_REDDIT__ENGINE__MAILBOX_CAPACITY", "2305843009213693952")] = .ok s ∧
      s.mailbox.capacity = 2305843009213693952 := by
  have hcapacity :
      (load {} [("RUSTY_REDDIT__ENGINE__MAILBOX_CAPACITY", "2305843009213693952")]).toOption.map
        (·.mailbox.capacity) = some 2305843009213693952 := by decide +kernel
  revert hcapacity
  cases load {} [("RUSTY_REDDIT__ENGINE__MAILBOX_CAPACITY", "2305843009213693952")] with
  | error e => exact nofun
  | ok s => exact fun h => ⟨s, rfl, Option.some.inj h⟩

/-- With settings that are accepted, as all that are loaded are, the engine starts exactly if their
capacity is one that a queue can have, and then with just that capacity. -/
theorem starts_iff_capacity_fits (e : Engine) (s : Settings)
    (accepted : s.broken? = none ∨ (∃ host env path, loadFrom host env path = .ok s) ∨
      ∃ host env, load host env = .ok s) :
    Mailbox.start? e s.mailbox.capacity.toNat =
      if s.mailbox.capacity.toNat ≤ Mailbox.capacityLimit then
        some (Mailbox.fresh e s.mailbox.capacity.toNat)
      else none := by
  have kept : s.broken? = none := by
    rcases accepted with kept | ⟨host, env, path, hload⟩ | ⟨host, env, hload⟩
    · exact kept
    · exact Setting.broken?_of_loadFrom hload
    · exact Setting.broken?_of_loadFrom hload
  exact Mailbox.start?_of_ne_zero e (capacity_ne_zero kept)

/-- Settings that are loaded and accepted, and with which no engine starts. -/
theorem accepted_and_never_starts :
    ∃ s, load {} [("RUSTY_REDDIT__ENGINE__MAILBOX_CAPACITY", "2305843009213693952")] = .ok s ∧
      s.broken? = none ∧ ∀ e, Mailbox.start? e s.mailbox.capacity.toNat = none := by
  obtain ⟨s, hload, hcapacity⟩ := exists_crowded
  have accepted : s.broken? = none := Setting.broken?_of_loadFrom hload
  refine ⟨s, hload, accepted, fun e => ?_⟩
  rw [Mailbox.start?_of_ne_zero e (capacity_ne_zero accepted), hcapacity]
  exact if_neg (by decide)

/-- The same settings by the general law. -/
theorem crowded_never_starts :
    ∃ s, load {} [("RUSTY_REDDIT__ENGINE__MAILBOX_CAPACITY", "2305843009213693952")] = .ok s ∧
      Mailbox.start? Engine.empty s.mailbox.capacity.toNat = none := by
  obtain ⟨s, hload, hcapacity⟩ := exists_crowded
  refine ⟨s, hload, ?_⟩
  rw [starts_iff_capacity_fits Engine.empty s (.inr (.inr ⟨_, _, hload⟩)), hcapacity]
  exact if_neg (by decide)

end Settings

end Agora
