import Reshape.Proofs.Branching
import Reshape.Proofs.Value.Shape
import Reshape.Tree.Compile

/-! Positions of a schema: the schema itself, and what `properties` or an array of items lead to from
a position. A position contributes if a directive stands there or at a position below it. -/

namespace Reshape

/-- The path of what stands on a branch. -/
def Branch.extend (path : String) : Branch → String
  | .name k => Tree.namedPath path k
  | .slot i => Tree.indexedPath path i

namespace Tree

/-- The path of what a way leads to. -/
def pathAlong (path : String) (way : List Branch) : String := way.foldl Branch.extend path

/-- The array under a key. -/
def array? (key : String) (es : List (Key × Value)) : Option (List Value) :=
  match Entries.find? (.text key) es with
  | some (.array vs) => some vs
  | _ => none

/-- The positional items of a position: those of `items` come before those of `prefixItems`. -/
def positional? (es : List (Key × Value)) : Option (List Value) :=
  (array? "items" es).or (array? "prefixItems" es)

theorem find?_of_array? {key : String} {es : List (Key × Value)} {vs : List Value}
    (h : array? key es = some vs) : Entries.find? (.text key) es = some (.array vs) := by
  unfold array? at h
  split at h
  · next he => rw [he, Option.some.inj h]
  · cases h

theorem hasArray_eq (key : String) (es : List (Key × Value)) :
    hasArray key es = (array? key es).isSome := by
  unfold hasArray array?
  rcases Entries.find? (.text key) es with _ | v
  · rfl
  · cases v <;> rfl

theorem itemCount?_eq (es : List (Key × Value)) :
    itemCount? es = (positional? es).map List.length := by
  unfold itemCount? positional? array?
  split <;> simp_all

/-- The positions right below one. Where the key `properties` stands, items lead nowhere. -/
def parts : Value → List (Branch × Value)
  | .object es =>
    match Entries.find? (.text "properties") es with
    | some (.object ps) => ps.map fun x => (.name x.1, x.2)
    | some _ => []
    | none => slotsFrom 0 ((positional? es).getD [])
  | _ => []

theorem parts_of_members {es ps : List (Key × Value)}
    (h : Entries.find? (.text "properties") es = some (.object ps)) :
    parts (.object es) = ps.map fun x => (.name x.1, x.2) := by
  simp only [parts, h]

theorem parts_of_items {es : List (Key × Value)} (h : hasProperties es = false) :
    parts (.object es) = slotsFrom 0 ((positional? es).getD []) := by
  have hnone : Entries.find? (.text "properties") es = none := by
    simpa [hasProperties, Entries.has] using h
  simp only [parts, hnone]

theorem mem_slotsFrom {α : Type} {i : Nat} {xs : List α} {b : Branch} {x : α} :
    (b, x) ∈ slotsFrom i xs ↔ ∃ j, b = .slot (i + j) ∧ xs[j]? = some x := by
  induction xs generalizing i with
  | nil => simp [slotsFrom]
  | cons y rest ih =>
    simp only [slotsFrom, List.mem_cons, Prod.mk.injEq, ih]
    constructor
    · rintro (⟨rfl, rfl⟩ | ⟨j, rfl, hj⟩)
      · exact ⟨0, rfl, rfl⟩
      · exact ⟨j + 1, by congr 1; omega, by simpa using hj⟩
    · rintro ⟨_ | j, rfl, hj⟩
      · exact .inl ⟨rfl, by simpa using hj.symm⟩
      · exact .inr ⟨j, by congr 1; omega, by simpa using hj⟩

theorem snd_mem_of_mem_slotsFrom {α : Type} {i : Nat} {xs : List α} {x : Branch × α}
    (h : x ∈ slotsFrom i xs) : x.2 ∈ xs := by
  obtain ⟨j, -, hj⟩ := mem_slotsFrom.mp h
  exact List.mem_of_getElem? hj

theorem slotsFrom_map {α β : Type} (g : α → β) (i : Nat) (xs : List α) :
    slotsFrom i (xs.map g) = (slotsFrom i xs).map fun x => (x.1, g x.2) := by
  induction xs generalizing i with
  | nil => rfl
  | cons x rest ih => simp [slotsFrom, ih]

theorem mem_of_positional? {es : List (Key × Value)} {vs : List Value}
    (h : positional? es = some vs) : ∃ k, (k, .array vs) ∈ es := by
  rcases Option.or_eq_some_iff.mp h with hi | ⟨-, hp⟩
  · exact ⟨_, Entries.mem_of_find? (find?_of_array? hi)⟩
  · exact ⟨_, Entries.mem_of_find? (find?_of_array? hp)⟩

/-- A part stands in a value of its position. -/
theorem mem_of_mem_parts {es : List (Key × Value)} {x : Branch × Value}
    (h : x ∈ parts (.object es)) :
    (∃ k ps j, (k, .object ps) ∈ es ∧ x.1 = .name j ∧ (j, x.2) ∈ ps) ∨
      ∃ k vs, (k, .array vs) ∈ es ∧ x.2 ∈ vs := by
  cases hp : Entries.find? (.text "properties") es with
  | none =>
    rw [parts_of_items (by simp [hasProperties, Entries.has, hp])] at h
    cases hi : positional? es with
    | none => simp [hi, slotsFrom] at h
    | some vs =>
      obtain ⟨k, hk⟩ := mem_of_positional? hi
      exact .inr ⟨k, vs, hk, snd_mem_of_mem_slotsFrom (by simpa [hi] using h)⟩
  | some p =>
    cases p with
    | object ps =>
      rw [parts_of_members hp] at h
      obtain ⟨y, hy, rfl⟩ := List.mem_map.mp h
      exact .inl ⟨_, ps, y.1, Entries.mem_of_find? hp, rfl, hy⟩
    | _ => simp [parts, hp] at h

theorem members_of_part {es : List (Key × Value)} (hp : hasProperties es = true)
    {x : Branch × Value} (hx : x ∈ parts (.object es)) :
    ∃ ps, Entries.find? (.text "properties") es = some (.object ps) := by
  obtain ⟨p, hp⟩ := Option.isSome_iff_exists.mp hp
  cases p with
  | object ps => exact ⟨ps, hp⟩
  | _ => simp [parts, hp] at hx

theorem name_of_mem_parts {es : List (Key × Value)} (hp : hasProperties es = true)
    {x : Branch × Value} (hx : x ∈ parts (.object es)) : ∃ k, x.1 = .name k := by
  obtain ⟨ps, hps⟩ := members_of_part hp hx
  rw [parts_of_members hps] at hx
  obtain ⟨y, -, rfl⟩ := List.mem_map.mp hx
  exact ⟨y.1, rfl⟩

theorem sizeOf_parts {v : Value} {x : Branch × Value} (h : x ∈ parts v) :
    sizeOf x.2 < sizeOf v := by
  cases v with
  | object es =>
    rcases mem_of_mem_parts h with ⟨k, ps, j, hk, -, hj⟩ | ⟨k, vs, hk, hx⟩
    · exact (Value.sizeOf_member hj).trans (Value.sizeOf_member hk)
    · exact (Value.sizeOf_item hx).trans (Value.sizeOf_member hk)
  | _ => simp [parts] at h

def schemaBranching : Branching Value := ⟨parts, fun _ _ => sizeOf_parts⟩

/-- All positions of a schema, with the ways to them. -/
def positions (schema : Value) : List (List Branch × Value) := schemaBranching.places schema

theorem positions_eq (v : Value) :
    positions v = ([], v) :: (parts v).flatMap fun x =>
      (positions x.2).map fun y => (x.1 :: y.1, y.2) :=
  schemaBranching.places_eq v

/-- A directive, or what stands for one, is at the position. -/
def holds (keyword : String) : Value → Bool
  | .object es => Entries.has (.text keyword) es
  | _ => false

/-- A directive is at the position or below it. -/
def contributes (keyword : String) (v : Value) : Bool :=
  (positions v).any fun y => holds keyword y.2

theorem contributes_iff {keyword : String} {v : Value} :
    contributes keyword v = true ↔
      holds keyword v = true ∨ ∃ x ∈ parts v, contributes keyword x.2 = true := by
  simp only [contributes, List.any_eq_true, positions]
  constructor
  · rintro ⟨y, hy, hh⟩
    rcases schemaBranching.mem_places.mp hy with rfl | ⟨x, hx, z, hz, rfl⟩
    · exact .inl hh
    · exact .inr ⟨x, hx, z, hz, hh⟩
  · rintro (hh | ⟨x, hx, z, hz, hh⟩)
    · exact ⟨_, schemaBranching.mem_places.mpr (.inl rfl), hh⟩
    · exact ⟨_, schemaBranching.mem_places.mpr (.inr ⟨x, hx, z, hz, rfl⟩), hh⟩

theorem contributes_eq_false_of_leaf {keyword : String} {v : Value} (hh : holds keyword v = false)
    (hp : parts v = []) : contributes keyword v = false := by
  rw [Bool.eq_false_iff, ne_eq, contributes_iff, hh, hp]
  simp

theorem contributes_of_mem {keyword : String} {v : Value} {y : List Branch × Value}
    (hy : y ∈ positions v) (h : contributes keyword y.2 = true) : contributes keyword v = true := by
  induction v using schemaBranching.ind generalizing y with
  | h v ih =>
    rcases schemaBranching.mem_places.mp hy with rfl | ⟨x, hx, z, hz, rfl⟩
    · exact h
    · exact contributes_iff.mpr (.inr ⟨x, hx, ih x hx hz h⟩)

/-- The contributing positions of a schema, in order. -/
def contributing (keyword : String) (schema : Value) : List (List Branch × Value) :=
  (positions schema).filter fun y => contributes keyword y.2

theorem contributing_eq_nil {keyword : String} {v : Value} (h : contributes keyword v = false) :
    contributing keyword v = [] := by
  refine List.filter_eq_nil_iff.mpr fun y hy hc => ?_
  simp [contributes_of_mem hy hc] at h

theorem contributing_eq_cons {keyword : String} {v : Value} (h : contributes keyword v = true) :
    contributing keyword v = ([], v) :: (parts v).flatMap fun x =>
      (contributing keyword x.2).map fun y => (x.1 :: y.1, y.2) := by
  rw [contributing, positions_eq, List.filter_cons, if_pos h, List.filter_flatMap]
  simp only [List.filter_map]
  rfl

/-! ### Schemas without repeated keys -/

theorem keyed_part {v : Value} (hv : v.Keyed) {x : Branch × Value} (hx : x ∈ parts v) :
    x.2.Keyed := by
  cases v with
  | object es =>
    rcases mem_of_mem_parts hx with ⟨k, ps, j, hk, -, hj⟩ | ⟨k, vs, hk, hm⟩
    · exact (hv.member hk).member hj
    · exact (hv.member hk).item hm
  | _ => simp [parts] at hx

theorem map_fst_slotsFrom {α : Type} (i : Nat) (xs : List α) :
    (slotsFrom i xs).map Prod.fst = (List.range' i xs.length).map .slot := by
  induction xs generalizing i with
  | nil => rfl
  | cons x rest ih => simp [slotsFrom, List.range'_succ, ih]

theorem length_slotsFrom {α : Type} (i : Nat) (xs : List α) : (slotsFrom i xs).length = xs.length := by
  simpa using congrArg List.length (map_fst_slotsFrom i xs)

theorem nodup_parts {v : Value} (hv : v.Keyed) : ((parts v).map Prod.fst).Nodup := by
  cases v with
  | object es =>
    cases hp : Entries.find? (.text "properties") es with
    | none =>
      rw [parts_of_items (by simp [hasProperties, Entries.has, hp]), map_fst_slotsFrom]
      exact List.Nodup.map (fun _ _ h => Branch.slot.inj h) List.nodup_range'
    | some p =>
      cases p with
      | object ps =>
        have hn : (Entries.keys ps).Nodup := (hv.member (Entries.mem_of_find? hp)).nodup
        have hk : (ps.map fun x => (Branch.name x.1, x.2)).map Prod.fst =
            (Entries.keys ps).map .name := by simp [Entries.keys, Function.comp_def]
        rw [parts_of_members hp, hk]
        exact hn.map fun _ _ h => Branch.name.inj h
      | _ => simp [parts, hp]
  | _ => simp [parts]

/-- Ways tell positions apart. -/
theorem nodup_positions {schema : Value} (h : schema.Keyed) :
    ((positions schema).map Prod.fst).Nodup := by
  refine schemaBranching.nodup_places fun y hy => nodup_parts ?_
  induction schema using schemaBranching.ind generalizing y with
  | h v ih =>
    rcases schemaBranching.mem_places.mp hy with rfl | ⟨x, hx, z, hz, rfl⟩
    · exact h
    · exact ih x hx (keyed_part h hx) z hz

end Tree

end Reshape
