import Bindery.Proofs.Inquiries

/-! The edges of a root, read off its tags one by one: the tags that lead somewhere, each with its position. -/

namespace Bindery

/-- The number in a coordinate, if the tag holds one, can be read. -/
def Tag.IsLegible (tag : Tag) : Prop :=
  tag.key = "a" → ∃ coordinate, Coordinate.parse tag.value = .ok coordinate

def Node.IsLegible (node : Node) : Prop :=
  ∀ tag ∈ node.tags, tag.IsLegible

instance (tag : Tag) : Decidable tag.IsLegible :=
  decidable_of_iff (tag.key = "a" → (Coordinate.parse tag.value).isOk = true) <| by
    apply imp_congr_right
    intro _
    cases Coordinate.parse tag.value <;> simp [Except.isOk, Except.toBool]

instance (node : Node) : Decidable node.IsLegible :=
  inferInstanceAs (Decidable (∀ tag ∈ node.tags, tag.IsLegible))

namespace Graph.Resolver
variable (resolver : Resolver) (visited : List Text) (root : Node)

/-- The coordinate that a tag leads to: one that the resolver supports and that is not the root's own. -/
def coordinateOf? (tag : Tag) : Option Coordinate :=
  if tag.key = "a" then
    match Coordinate.parse tag.value with
    | .ok (some coordinate) =>
      if root.coordinate ≠ some coordinate ∧ resolver.supports coordinate.kind then some coordinate else none
    | _ => none
  else none

/-- The id that a tag leads to, when some are visited. -/
def idOf? (tag : Tag) : Option Text :=
  if tag.key = "e" ∧ tag.value ≠ [] ∧ tag.value ≠ root.id ∧ visited.contains tag.value = false then some tag.value
  else none

variable {resolver visited root} {tag : Tag}

theorem coordinateOf?_eq_some {coordinate : Coordinate} :
    resolver.coordinateOf? root tag = some coordinate ↔
      tag.key = "a" ∧ Coordinate.parse tag.value = .ok (some coordinate) ∧
        root.coordinate ≠ some coordinate ∧ resolver.supports coordinate.kind = true := by
  unfold coordinateOf?
  split
  next key =>
    split
    next other parsed =>
      simp only [parsed, Except.ok.injEq, Option.some.injEq, Option.ite_none_right_eq_some]
      grind
    next unparsed => exact ⟨nofun, fun holds => absurd holds.2.1 (unparsed coordinate)⟩
  next other => exact ⟨nofun, fun holds => absurd holds.1 other⟩

theorem idOf?_eq_some {id : Text} :
    idOf? visited root tag = some id ↔
      tag.key = "e" ∧ tag.value = id ∧ id ≠ [] ∧ id ≠ root.id ∧ id ∉ visited := by
  simp only [idOf?, Option.ite_none_right_eq_some, Option.some.injEq, List.contains_eq_mem, decide_eq_false_iff_not]
  grind

theorem coordinateOf?_eq_none (key : tag.key ≠ "a") : resolver.coordinateOf? root tag = none :=
  if_neg key

theorem idOf?_eq_none (key : tag.key = "a") : idOf? visited root tag = none :=
  Option.eq_none_iff_forall_ne_some.mpr fun _ named =>
    absurd (key.symm.trans (idOf?_eq_some.mp named).1) (by decide)

/-! ### Reading all tags -/

section
variable {α : Type} {target : Tag → Option α}

/-- The edges of tags that lead somewhere, the first of them at a position. -/
def edgesBy (target : Tag → Option α) (position : Nat) (tags : List Tag) : List (Edge α) :=
  (tags.zipIdx position).filterMap fun (tag, position) => (target tag).map (⟨position, ·⟩)

theorem edgesBy_cons (position : Nat) (tag : Tag) (tags : List Tag) :
    edgesBy target position (tag :: tags) =
      ((target tag).map (⟨position, ·⟩)).toList ++ edgesBy target (position + 1) tags := by
  simp only [edgesBy, List.zipIdx_cons, List.filterMap_cons]
  cases target tag <;> rfl

theorem mem_edgesBy {tags : List Tag} {edge : Edge α} :
    edge ∈ edgesBy target 0 tags ↔ ∃ tag, tags[edge.position]? = some tag ∧ target tag = some edge.target := by
  obtain ⟨position, aim⟩ := edge
  simp only [edgesBy, List.mem_filterMap, Prod.exists, List.mk_mem_zipIdx_iff_getElem?, Option.map_eq_some_iff,
    Edge.mk.injEq]
  constructor
  · intro given
    obtain ⟨tag, other, here, reached, leads, rfl, rfl⟩ := given
    exact ⟨tag, here, leads⟩
  · intro given
    obtain ⟨tag, here, leads⟩ := given
    exact ⟨tag, position, here, aim, leads, rfl, rfl⟩

theorem pairwise_edgesBy (position : Nat) (tags : List Tag) :
    (edgesBy target position tags).Pairwise (·.position < ·.position) := by
  have indices : (tags.zipIdx position).Pairwise fun first second => first.2 < second.2 := by
    rw [← List.pairwise_map (f := Prod.snd), List.zipIdx_map_snd]
    exact List.pairwise_lt_range'
  apply indices.filterMap _
  intro first second before edge made other madeOther
  obtain ⟨_, _, rfl⟩ := Option.map_eq_some_iff.mp made
  obtain ⟨_, _, rfl⟩ := Option.map_eq_some_iff.mp madeOther
  exact before

end

variable (resolver visited root)

def edgesAt (position : Nat) (tags : List Tag) : Edges :=
  ⟨edgesBy (resolver.coordinateOf? root) position tags, edgesBy (idOf? visited root) position tags⟩

def edgesOf : Edges :=
  resolver.edgesAt visited root 0 root.tags

variable {resolver visited root} {store : Store}

private theorem ends_coordinateTarget (key : tag.key = "a") :
    Resolving.Ends store (· = resolver.coordinateOf? root tag) (¬ tag.IsLegible)
      (resolver.coordinateTarget root tag.value) := by
  unfold coordinateTarget coordinateOf?
  rw [Resolving.ends_bind, if_pos key]
  cases parsed : Coordinate.parse tag.value with
  | error error =>
    exact fun legible => by simpa [parsed] using legible key
  | ok coordinate =>
    cases coordinate with
    | none => exact rfl
    | some coordinate =>
      change Resolving.Ends _ _ _ (if _ then _ else _)
      by_cases own : root.coordinate = some coordinate
      · simp [own]
      · by_cases supported : resolver.supports coordinate.kind <;> simp [own, supported]

private theorem ends_idTarget (key : tag.key = "e") (present : tag.value ≠ []) {excuse : Prop} :
    Resolving.Ends store (· = idOf? visited root tag) excuse (idTarget visited root tag.value) := by
  unfold idTarget idOf?
  by_cases own : tag.value = root.id
  · simp [own]
  · by_cases seen : tag.value ∈ visited <;> simp [own, seen, key, present]

private theorem ends_edgesFrom (position : Nat) (tags : List Tag) :
    Resolving.Ends store (· = resolver.edgesAt visited root position tags) (∃ tag ∈ tags, ¬ tag.IsLegible)
      (resolver.edgesFrom visited root position tags) := by
  induction tags generalizing position with
  | nil => exact rfl
  | cons tag tags ih =>
    have rest := (ih (position + 1)).imp (fun _ same => same)
      fun ⟨other, member, illegible⟩ => (⟨other, List.mem_cons_of_mem _ member, illegible⟩ :
        ∃ other ∈ tag :: tags, ¬ other.IsLegible)
    rw [edgesFrom, edgesAt, edgesBy_cons, edgesBy_cons]
    by_cases coordinateKey : tag.key = "a"
    · rw [if_pos coordinateKey, Resolving.ends_bind, idOf?_eq_none coordinateKey]
      refine (ends_coordinateTarget coordinateKey).imp ?_ fun illegible => ⟨tag, List.mem_cons_self, illegible⟩
      intro result same
      subst same
      exact Resolving.ends_bind.mpr (rest.imp (fun edges same => by subst same; rfl) id)
    · rw [if_neg coordinateKey, coordinateOf?_eq_none coordinateKey]
      by_cases idKey : tag.key = "e" ∧ tag.value ≠ []
      · have guard : (tag.key = "e" && !tag.value.isEmpty) = true := by simpa using idKey
        rw [if_pos guard, Resolving.ends_bind]
        refine (ends_idTarget idKey.1 idKey.2).imp ?_ id
        intro result same
        subst same
        exact Resolving.ends_bind.mpr (rest.imp (fun edges same => by subst same; rfl) id)
      · have guard : (tag.key = "e" && !tag.value.isEmpty) = false := by simpa using idKey
        have noId : idOf? visited root tag = none := if_neg fun holds => idKey ⟨holds.1, holds.2.1⟩
        rw [guard, noId]
        exact rest

/-- Whatever is visited, the edges of a root are those that its tags lead to. -/
theorem ends_edges :
    Resolving.Ends store (· = resolver.edgesOf visited root) (¬ root.IsLegible)
      (resolver.edges visited root) := by
  apply (ends_edgesFrom 0 root.tags).imp (fun _ same => same)
  intro given legible
  obtain ⟨tag, member, illegible⟩ := given
  exact illegible (legible tag member)

end Graph.Resolver
end Bindery
