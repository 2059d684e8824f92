import Reshape.Proofs.Tree.Pruning

/-! What the compiler reads of a position: the directive, the value under `properties`, and the array
of items. Positions with the same directive, the same members and the same rows compile to the same
node or fail alike, whatever else they hold. So a value of a position can be replaced by another one
that is read alike. -/

namespace Reshape.Tree

variable {r : Registry} {s : Settings} {es fs : List (Key × Value)} {path : String}

/-! ### Readings -/

/-- The children that a value gives under the key `properties`. -/
def members (r : Registry) (s : Settings) (path : String) : Value → Outcome Children
  | .object ps => (compileNamed r s ps path).map namedChildren
  | _ => .ok .leaf

/-- How many positional items there are, and what they give. -/
def rows (r : Registry) (s : Settings) (path : String) (vs : List Value) :
    Nat × Outcome (List (Option Node)) :=
  (vs.length, compileItems r s vs path 0)

theorem childrenOf_eq_of_read (es : List (Key × Value)) (path : String) :
    childrenOf r s es path =
      match (Entries.find? (.text "properties") es).map (members r s path),
        (positional? es).map (rows r s path) with
      | some c, _ => c
      | none, some (_, o) => o.map indexedChildren
      | none, none => .ok .leaf := by
  unfold childrenOf
  cases hp : Entries.find? (.text "properties") es with
  | some v =>
    have hhas : hasProperties es = true := by simp [hasProperties, Entries.has, hp]
    rw [if_pos hhas, properties_eq, hp]
    cases v <;> rfl
  | none =>
    have hhas : hasProperties es = false := by simp [hasProperties, Entries.has, hp]
    simp only [hhas, Bool.false_eq_true, if_false, hasArray_eq, items_eq, positional?]
    rcases array? "items" es with _ | vs
    · rcases array? "prefixItems" es with _ | vs <;> rfl
    · rfl

theorem inferred_congr
    (hp : (Entries.find? (.text "properties") fs).isSome =
      (Entries.find? (.text "properties") es).isSome)
    (hi : (positional? fs).map List.length = (positional? es).map List.length) :
    inferred fs = inferred es := by
  simp only [inferred, hasProperties, Entries.has, hp, itemCount?_eq, hi]

theorem assemble_congr (h : inferred fs = inferred es) (path : String) (d : Option Directive)
    (c : Children) : assemble r path fs d c = assemble r path es d c := by
  cases d with
  | some d => rfl
  | none => cases c <;> simp only [assemble, h]

/-- Positions that are read alike compile alike. -/
theorem compileNode_congr (hd : directiveOf r s fs path = directiveOf r s es path)
    (hm : (Entries.find? (.text "properties") fs).map (members r s path) =
      (Entries.find? (.text "properties") es).map (members r s path))
    (hr : (positional? fs).map (rows r s path) = (positional? es).map (rows r s path)) :
    compileNode r s (.object fs) path = compileNode r s (.object es) path := by
  have hchildren : childrenOf r s fs path = childrenOf r s es path := by
    rw [childrenOf_eq_of_read, childrenOf_eq_of_read, hm, hr]
  -- whether `properties` is there decides the family of a seed, the number of items its length
  have hproperties := congrArg Option.isSome hm
  rw [Option.isSome_map, Option.isSome_map] at hproperties
  have hlength := congrArg (Option.map Prod.fst) hr
  rw [Option.map_map, Option.map_map] at hlength
  have hinferred := inferred_congr hproperties hlength
  rw [compileNode_object, compileNode_object, hd, hchildren]
  simp only [assemble_congr hinferred]

/-! ### Replacing a value -/

/-- The text that a value is. -/
def textOf? : Value → Option String
  | .text t => some t
  | _ => none

/-- The array that a value is. -/
def items? : Value → Option (List Value)
  | .array vs => some vs
  | _ => none

theorem directiveOf_eq_of_read (es : List (Key × Value)) (path : String) :
    directiveOf r s es path =
      match (Entries.find? (.text s.keyword) es).map textOf? with
      | none => .ok none
      | some (some t) => .ok (some (Directive.splitIn r t s.defaultFamily))
      | some none => .error (.fault (.compile (.directive s.keyword) (some path))) := by
  unfold directiveOf
  rcases Entries.find? (.text s.keyword) es with _ | v
  · rfl
  · cases v <;> rfl

theorem array?_eq (key : String) (es : List (Key × Value)) :
    array? key es = (Entries.find? (.text key) es).bind items? := by
  unfold array?
  rcases Entries.find? (.text key) es with _ | v
  · rfl
  · cases v <;> rfl

/-- Values of which the compiler reads the same, under whatever key they stand. -/
structure ReadAlike (r : Registry) (s : Settings) (v w : Value) : Prop where
  text : textOf? w = textOf? v
  members : ∀ path, members r s path w = members r s path v
  rows : ∀ path, (items? w).map (rows r s path) = (items? v).map (rows r s path)

theorem readAlike_object {ps qs : List (Key × Value)}
    (h : ∀ path, compileNamed r s qs path = compileNamed r s ps path) :
    ReadAlike r s (.object ps) (.object qs) :=
  ⟨rfl, fun path => by simp only [Tree.members, h], fun _ => rfl⟩

theorem readAlike_array {vs ws : List Value} (hl : ws.length = vs.length)
    (h : ∀ path, compileItems r s ws path 0 = compileItems r s vs path 0) :
    ReadAlike r s (.array vs) (.array ws) :=
  ⟨rfl, fun _ => rfl, fun path => by simp only [items?, Option.map_some, Tree.rows, hl, h]⟩

/-- A value of a position can be replaced by one that is read alike. -/
theorem compileNode_replace {v w : Value} (h : ReadAlike r s v w) (front back : List (Key × Value))
    (k : Key) (path : String) :
    compileNode r s (.object (front ++ (k, w) :: back)) path =
      compileNode r s (.object (front ++ (k, v) :: back)) path := by
  have harray : ∀ key, (array? key (front ++ (k, w) :: back)).map (rows r s path) =
      (array? key (front ++ (k, v) :: back)).map (rows r s path) := by
    intro key
    have hfound := Entries.map_find?_replace (f := fun u => (items? u).map (rows r s path))
      (h.rows path) (.text key) k front back
    have hjoined := congrArg (fun o => o.bind id) hfound
    simp only [Option.bind_map] at hjoined
    rw [array?_eq, array?_eq, Option.map_bind, Option.map_bind]
    exact hjoined
  refine compileNode_congr ?directive ?members ?rows
  case directive =>
    rw [directiveOf_eq_of_read, directiveOf_eq_of_read, Entries.map_find?_replace h.text]
  case members => exact Entries.map_find?_replace (h.members path) _ _ _ _
  case rows => rw [positional?, positional?, Option.map_or, Option.map_or, harray, harray]

end Reshape.Tree
