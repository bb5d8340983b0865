import Bindery.Data.Basic
import Bindery.Proofs.KeyedLists

/-! Fields looked up by name. A field that is set is found with its new value, and every other name is found as before. A
name that stands for one value only is found with it wherever it stands. -/

namespace Bindery
namespace Data

variable {fields : List (Data × Data)} {key value : Data} {name : Text}

/-- A name is no number, so a key is the same as it only if it is that name. -/
theorem sameKey_text_iff : key.sameKey (.text name) = true ↔ key = .text name := by
  cases key with
  | text own => exact decide_eq_true_iff.trans ⟨congrArg Data.text, Data.text.inj⟩
  | float number =>
    refine iff_of_false ?_ nofun
    -- The comparison asks whether the float is whole before it sees that a text is no number.
    unfold sameKey
    split
    next right => cases right
    next right => cases right
    next => exact Bool.false_ne_true
    next => exact Bool.false_ne_true
    next left right => cases left
  | _ => exact iff_of_false Bool.false_ne_true nofun

/-! ### The first field of a name -/

theorem fieldOf?_nil : fieldOf? [] name = none :=
  rfl

theorem fieldOf?_cons_self : fieldOf? ((.text name, value) :: fields) name = some value := by
  simp [fieldOf?]

theorem fieldOf?_cons_of_ne (differs : key ≠ .text name) :
    fieldOf? ((key, value) :: fields) name = fieldOf? fields name := by
  cases key with
  | text own =>
    have differs : own ≠ name := fun same => differs (congrArg Data.text same)
    simp [fieldOf?, differs]
  | _ => rfl

theorem fieldOf?_eq_some_of_mem (member : (.text name, value) ∈ fields)
    (once : ∀ field ∈ fields, field.1 = .text name → field.2 = value) : fieldOf? fields name = some value := by
  induction fields with
  | nil => cases member
  | cons field fields ih =>
    obtain ⟨key, found⟩ := field
    obtain ⟨here, later⟩ := List.forall_mem_cons.mp once
    by_cases same : key = .text name
    · obtain rfl := same
      obtain rfl := here rfl
      exact fieldOf?_cons_self
    · rw [fieldOf?_cons_of_ne same]
      refine ih ?_ later
      cases member with
      | head => exact absurd rfl same
      | tail _ member => exact member

theorem fieldOf?_eq_none (absent : ∀ field ∈ fields, field.1 ≠ .text name) : fieldOf? fields name = none := by
  induction fields with
  | nil => rfl
  | cons field fields ih =>
    obtain ⟨here, later⟩ := List.forall_mem_cons.mp absent
    rw [fieldOf?_cons_of_ne here, ih later]

/-- A name that stands for at most one value is found with it, whatever the order of the fields. -/
theorem fieldOf?_eq_of_mem_iff {found : Option Data} (holds : ∀ value, (.text name, value) ∈ fields ↔ found = some value) :
    fieldOf? fields name = found := by
  cases found with
  | none =>
    apply fieldOf?_eq_none
    rintro ⟨key, value⟩ member rfl
    cases (holds value).mp member
  | some value =>
    apply fieldOf?_eq_some_of_mem ((holds value).mpr rfl)
    rintro ⟨key, other⟩ member rfl
    exact (Option.some.inj ((holds other).mp member)).symm

/-- A field with a text for its key. -/
def keyed (field : Text × Data) : Data × Data :=
  (.text field.1, field.2)

/-- Fields with distinct names are found by name in whatever order they stand, and whatever else stands among them. -/
theorem fieldOf?_eq_lookup {named : List (Text × Data)} {others : List (Data × Data)}
    (distinct : (named.map Prod.fst).Nodup) (silent : ∀ field ∈ others, field.1 ≠ .text name)
    (order : fields.Perm (named.map keyed ++ others)) :
    fieldOf? fields name = named.lookup name := by
  apply fieldOf?_eq_of_mem_iff
  intro value
  rw [lookup_eq_some_iff_mem distinct, order.mem_iff, List.mem_append]
  constructor
  · rintro (member | member)
    · obtain ⟨field, own, same⟩ := List.mem_map.mp member
      cases same
      exact own
    · exact absurd rfl (silent _ member)
  · intro member
    exact .inl (List.mem_map.mpr ⟨_, member, rfl⟩)

theorem fieldOf?_append (more : List (Data × Data)) :
    fieldOf? (fields ++ more) name = (fieldOf? fields name).or (fieldOf? more name) := by
  simp only [fieldOf?, List.find?_append, Option.map_or]

/-! ### Setting a field -/

theorem fieldOf?_map (replaced : Text) :
    fieldOf? (fields.map fun field => if field.1.sameKey (.text replaced) then (field.1, value) else field) name =
      if replaced = name then (fieldOf? fields name).map fun _ => value else fieldOf? fields name := by
  induction fields with
  | nil => split <;> rfl
  | cons field fields ih =>
    obtain ⟨key, old⟩ := field
    rw [List.map_cons]
    by_cases own : key = .text name
    · obtain rfl := own
      by_cases same : replaced = name
      · obtain rfl := same
        rw [if_pos (sameKey_text_iff.mpr rfl), if_pos rfl, fieldOf?_cons_self, fieldOf?_cons_self]
        rfl
      · have untouched : ¬ (Data.text name).sameKey (.text replaced) = true := by
          intro touched
          exact same (Data.text.inj (sameKey_text_iff.mp touched)).symm
        rw [if_neg untouched, if_neg same, fieldOf?_cons_self, fieldOf?_cons_self]
    · rw [fieldOf?_cons_of_ne own, ← ih]
      split <;> exact fieldOf?_cons_of_ne own

theorem any_sameKey_text : (fields.any fun field => field.1.sameKey (.text name)) = (fieldOf? fields name).isSome := by
  induction fields with
  | nil => rfl
  | cons field fields ih =>
    obtain ⟨key, value⟩ := field
    rw [List.any_cons]
    by_cases own : key = .text name
    · obtain rfl := own
      rw [sameKey_text_iff.mpr rfl, fieldOf?_cons_self]
      rfl
    · rw [Bool.eq_false_iff.mpr fun same => own (sameKey_text_iff.mp same), fieldOf?_cons_of_ne own]
      exact ih

/-- A field that is set is found with its new value. All others are found as before. -/
theorem fieldOf?_insertField (set : Text) :
    fieldOf? (insertField fields (.text set) value) name = if set = name then some value else fieldOf? fields name := by
  unfold insertField
  split
  next present =>
    rw [fieldOf?_map]
    split
    next same =>
      obtain rfl := same
      rw [any_sameKey_text] at present
      obtain ⟨old, found⟩ := Option.isSome_iff_exists.mp present
      rw [found, Option.map_some]
    next => rfl
  next missing =>
    rw [any_sameKey_text, Option.not_isSome_iff_eq_none] at missing
    rw [fieldOf?_append]
    split
    next same =>
      obtain rfl := same
      rw [missing, fieldOf?_cons_self, Option.none_or]
    next differs =>
      have other : Data.text set ≠ .text name := fun same => differs (Data.text.inj same)
      rw [fieldOf?_cons_of_ne other, fieldOf?_nil, Option.or_none]

end Data
end Bindery
