import Mathlib.Data.List.Dedup
import Mathlib.Data.List.Nodup
import Mathlib.Data.List.Perm.Subperm

/-! # A bounded map that forgets what was used least recently

The entries stand in the order of their use, the last one at the end. A new key
takes the place of the oldest ones when there is no room. -/
namespace RetailPrintGuard.Library.RecentlyUsed

variable {κ β : Type} [DecidableEq κ] {limit : Nat} {key other : κ} {fresh : β} {change : β → β}
variable {entries : List (κ × β)}

/-- The oldest entries go until there is room for one more. -/
def makeRoom (limit : Nat) (entries : List (κ × β)) : List (κ × β) :=
  entries.drop (entries.length + 1 - limit)

def remove (key : κ) (entries : List (κ × β)) : List (κ × β) :=
  entries.filter fun entry => entry.1 ≠ key

/-- The value of a key is changed, and the key is the one used last. -/
def use (limit : Nat) (key : κ) (fresh : β) (change : β → β) (entries : List (κ × β)) :
    List (κ × β) :=
  match entries.lookup key with
  | none => makeRoom limit entries ++ [(key, change fresh)]
  | some value => remove key entries ++ [(key, change value)]

/-! ## Its size -/

theorem length_remove_le : (remove key entries).length ≤ entries.length :=
  List.length_filter_le _ _

theorem lookup_eq_none : entries.lookup key = none ↔ key ∉ entries.map Prod.fst := by
  rw [List.lookup_eq_none_iff, List.mem_map]
  constructor
  · rintro h ⟨entry, hin, rfl⟩
    exact bne_iff_ne.mp (h entry hin) rfl
  · rintro h entry hin
    exact bne_iff_ne.mpr fun heq => h ⟨entry, hin, heq.symm⟩

theorem length_remove_lt (h : entries.lookup key ≠ none) :
    (remove key entries).length < entries.length := by
  obtain ⟨entry, hin, hkey⟩ := List.mem_map.mp (not_not.mp (mt lookup_eq_none.mpr h))
  exact List.length_filter_lt_length_iff_exists.mpr ⟨entry, hin, by simp [hkey]⟩

theorem length_use_le (hlimit : 1 ≤ limit) (h : entries.length ≤ limit) :
    (use limit key fresh change entries).length ≤ limit := by
  unfold use
  split
  · rw [makeRoom, List.length_append, List.length_drop, List.length_singleton]
    omega
  · next hsome =>
    have hlt := @length_remove_lt _ _ _ key entries (by rw [hsome]; exact Option.some_ne_none _)
    rw [List.length_append, List.length_singleton]
    omega

/-! ## Its keys -/

theorem nodup_remove (h : (entries.map Prod.fst).Nodup) :
    ((remove key entries).map Prod.fst).Nodup :=
  h.sublist (List.filter_sublist.map _)

theorem not_mem_remove : key ∉ (remove key entries).map Prod.fst := by
  intro h
  obtain ⟨entry, hin, rfl⟩ := List.mem_map.mp h
  simpa using (List.mem_filter.mp hin).2

theorem nodup_use (h : (entries.map Prod.fst).Nodup) :
    ((use limit key fresh change entries).map Prod.fst).Nodup := by
  unfold use
  split
  · next hnone =>
    rw [List.map_append, List.map_singleton]
    exact List.nodup_append_comm.mp (List.nodup_cons.mpr
      ⟨fun hin => lookup_eq_none.mp hnone ((List.drop_sublist _ _).map Prod.fst |>.subset hin),
        h.sublist ((List.drop_sublist _ _).map _)⟩)
  · rw [List.map_append, List.map_singleton]
    exact List.nodup_append_comm.mp (List.nodup_cons.mpr ⟨not_mem_remove, nodup_remove h⟩)

theorem keys_use_subset :
    (use limit key fresh change entries).map Prod.fst ⊆ key :: entries.map Prod.fst := by
  unfold use
  split
  · rw [List.map_append, List.map_singleton]
    exact List.append_subset.mpr
      ⟨fun _ hin => List.mem_cons_of_mem _ (((List.drop_sublist _ _).map _).subset hin),
        by simp⟩
  · rw [List.map_append, List.map_singleton]
    exact List.append_subset.mpr
      ⟨fun _ hin => List.mem_cons_of_mem _ ((List.filter_sublist.map _).subset hin), by simp⟩

/-- There is room for a new key as long as no more keys are used than fit. -/
theorem length_lt_of_new {keys : List κ} (hnodup : (entries.map Prod.fst).Nodup)
    (hkeys : entries.map Prod.fst ⊆ keys) (hkey : key ∈ keys)
    (hlimit : keys.dedup.length ≤ limit) (hnew : entries.lookup key = none) :
    entries.length < limit := by
  have hcons : (key :: entries.map Prod.fst).Nodup :=
    List.nodup_cons.mpr ⟨lookup_eq_none.mp hnew, hnodup⟩
  have hsubset : key :: entries.map Prod.fst ⊆ keys.dedup :=
    List.cons_subset.mpr ⟨List.mem_dedup.mpr hkey, fun _ h => List.mem_dedup.mpr (hkeys h)⟩
  have hlength := (hcons.subperm hsubset).length_le
  rw [List.length_cons, List.length_map] at hlength
  omega

/-! ## Its values -/

theorem lookup_append_singleton {value : β} (h : key ∉ entries.map Prod.fst) :
    (entries ++ [(key, value)]).lookup key = some value := by
  rw [List.lookup_append, lookup_eq_none.mpr h]
  exact List.lookup_cons_self

theorem lookup_append_of_ne {value : β} (h : other ≠ key) :
    (entries ++ [(key, value)]).lookup other = entries.lookup other := by
  rw [List.lookup_append]
  cases hfound : entries.lookup other with
  | some found => rfl
  | none =>
    rw [Option.none_or, List.lookup_cons, beq_eq_false_iff_ne.mpr h]
    rfl

theorem lookup_remove_self : (remove key entries).lookup key = none :=
  lookup_eq_none.mpr not_mem_remove

theorem lookup_remove_of_ne (h : other ≠ key) :
    (remove key entries).lookup other = entries.lookup other := by
  induction entries with
  | nil => rfl
  | cons entry entries ih =>
    obtain ⟨first, value⟩ := entry
    rw [remove, List.filter_cons] at *
    rw [List.lookup_cons]
    split
    · rw [List.lookup_cons, ih]
    · next hkey =>
      obtain rfl : first = key := by simpa using hkey
      rw [beq_eq_false_iff_ne.mpr h]
      exact ih

theorem lookup_use_self : (use limit key fresh change entries).lookup key =
    some (change ((entries.lookup key).getD fresh)) := by
  unfold use
  split
  · next hnone =>
    rw [lookup_append_singleton, hnone, Option.getD_none]
    exact fun hin => lookup_eq_none.mp hnone (((List.drop_sublist _ _).map _).subset hin)
  · next value hsome =>
    rw [lookup_append_singleton not_mem_remove, hsome, Option.getD_some]

/-- Where there is room, the other keys keep their values. -/
theorem lookup_use_of_ne (hroom : entries.lookup key = none → entries.length < limit)
    (h : other ≠ key) :
    (use limit key fresh change entries).lookup other = entries.lookup other := by
  unfold use
  split
  · next hnone =>
    have hlt := hroom hnone
    rw [lookup_append_of_ne h, makeRoom, show entries.length + 1 - limit = 0 by omega,
      List.drop_zero]
  · rw [lookup_append_of_ne h, lookup_remove_of_ne h]

end RetailPrintGuard.Library.RecentlyUsed
