import Mathlib.Data.List.Nodup

/-! Lists of things under keys. Where no key comes twice, what is looked up under a key is all that stands under it, and
the list is told by its keys and by what is looked up under each of them. -/

namespace Bindery

section
variable {α : Type} [BEq α] [LawfulBEq α]

theorem nodup_eraseDups (items : List α) : items.eraseDups.Nodup := by
  match items with
  | [] => exact List.nodup_nil
  | item :: rest =>
    rw [List.eraseDups_cons, List.nodup_cons, List.mem_eraseDups]
    exact ⟨by simp, nodup_eraseDups _⟩
termination_by items.length
decreasing_by exact Nat.lt_succ_of_le (List.length_filter_le _ _)

/-- What comes last is listed last, unless it came before. -/
theorem eraseDups_concat (items : List α) (item : α) :
    (items ++ [item]).eraseDups = if item ∈ items then items.eraseDups else items.eraseDups ++ [item] := by
  rw [List.eraseDups_append]
  split
  next before => simp [List.removeAll, before]
  next fresh => simp [List.removeAll, fresh, List.eraseDups_cons]

end

section
variable {α κ : Type} [DecidableEq κ] {items : List α} {keyOf : α → κ} {key : κ} {item : α}

theorem find?_eq_some_iff_mem (distinct : (items.map keyOf).Nodup) :
    items.find? (keyOf · = key) = some item ↔ item ∈ items ∧ keyOf item = key := by
  constructor
  · intro found
    exact ⟨List.mem_of_find?_eq_some found, by simpa using List.find?_some found⟩
  · intro given
    obtain ⟨member, rfl⟩ := given
    cases found : items.find? (keyOf · = keyOf item) with
    | none => simpa using List.find?_eq_none.mp found item member
    | some other =>
      have same : keyOf other = keyOf item := by simpa using List.find?_some found
      rw [List.inj_on_of_nodup_map distinct (List.mem_of_find?_eq_some found) member same]

end

section
variable {κ β : Type} [BEq κ] [LawfulBEq κ] {keyed others : List (κ × β)} {key : κ} {value : β}

theorem lookup_eq_some_iff_mem (distinct : (keyed.map Prod.fst).Nodup) :
    keyed.lookup key = some value ↔ (key, value) ∈ keyed := by
  constructor
  · intro found
    obtain ⟨before, after, rfl, _⟩ := List.lookup_eq_some_iff.mp found
    exact List.mem_append_right before List.mem_cons_self
  · intro member
    cases found : keyed.lookup key with
    | none => simpa using List.lookup_eq_none_iff.mp found _ member
    | some other =>
      obtain ⟨before, after, same, _⟩ := List.lookup_eq_some_iff.mp found
      have also : (key, other) ∈ keyed := same ▸ List.mem_append_right before List.mem_cons_self
      exact congrArg (some ∘ Prod.snd) (List.inj_on_of_nodup_map distinct also member rfl)

/-- What is found under the same keys alike is the same up to order. -/
theorem perm_of_lookup_eq (distinct : (keyed.map Prod.fst).Nodup) (distinctOthers : (others.map Prod.fst).Nodup)
    (alike : ∀ key, keyed.lookup key = others.lookup key) : keyed.Perm others := by
  apply (List.perm_ext_iff_of_nodup distinct.of_map distinctOthers.of_map).mpr
  intro entry
  rw [← lookup_eq_some_iff_mem distinct, ← lookup_eq_some_iff_mem distinctOthers, alike]

theorem filterMap_lookup (distinct : (keyed.map Prod.fst).Nodup) :
    (keyed.map Prod.fst).filterMap (fun key => (keyed.lookup key).map (key, ·)) = keyed := by
  have found : ∀ entry ∈ keyed, (keyed.lookup entry.1).map (entry.1, ·) = some entry := by
    intro entry member
    rw [(lookup_eq_some_iff_mem distinct).mpr member, Option.map_some]
  rw [List.filterMap_map]
  exact (List.filterMap_congr found).trans List.filterMap_some

/-- With its keys in the same order it is the same. -/
theorem eq_of_lookup_eq (distinct : (keyed.map Prod.fst).Nodup) (sameKeys : keyed.map Prod.fst = others.map Prod.fst)
    (alike : ∀ key, keyed.lookup key = others.lookup key) : keyed = others := by
  calc keyed
    _ = (keyed.map Prod.fst).filterMap fun key => (keyed.lookup key).map (key, ·) := (filterMap_lookup distinct).symm
    _ = (others.map Prod.fst).filterMap fun key => (others.lookup key).map (key, ·) := by
      rw [sameKeys]
      exact List.filterMap_congr fun key _ => congrArg _ (alike key)
    _ = others := filterMap_lookup (sameKeys ▸ distinct)

end
end Bindery
