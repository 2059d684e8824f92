import Reshape.Proofs.Grammar
import Reshape.Proofs.Tree.Congruence

/-! Directives with their families written out. `mapDirectives` rewrites the directives of a schema at
all positions that the compiler comes to and leaves everything else as it is. If each of them is
replaced by its family, a colon and its expression, the schema compiles as before, and from then on
the default family makes no difference. -/

namespace Reshape.Tree

/-! ### Rewriting directives -/

/-- The key of the items that lead to positions. -/
def itemsKey (es : List (Key × Value)) : Option Key :=
  if hasProperties es then none
  else if hasArray "items" es then some (.text "items")
  else some (.text "prefixItems")

mutual

/-- Rewrites the text under the keyword at every position of a schema. -/
def mapDirectives (keyword : String) (f : String → String) : Value → Value
  | .object es => .object (mapEntries keyword f (itemsKey es) es)
  | v => v

/-- Rewrites what stands at a position, whose items stand under the key `route`. -/
def mapEntries (keyword : String) (f : String → String) (route : Option Key) :
    List (Key × Value) → List (Key × Value)
  | [] => []
  | (k, v) :: rest => (k, mapUnder keyword f route k v) :: mapEntries keyword f route rest

/-- Texts, objects and arrays are rewritten under keys of their own; should the keyword be one of
these, its value still has one kind only. -/
def mapUnder (keyword : String) (f : String → String) (route : Option Key) (k : Key) : Value → Value
  | .text t => if k = .text keyword then .text (f t) else .text t
  | .object ps => if k = .text "properties" then .object (mapMembers keyword f ps) else .object ps
  | .array vs => if route = some k then .array (mapItems keyword f vs) else .array vs
  | v => v

def mapMembers (keyword : String) (f : String → String) : List (Key × Value) → List (Key × Value)
  | [] => []
  | (k, v) :: rest => (k, mapDirectives keyword f v) :: mapMembers keyword f rest

def mapItems (keyword : String) (f : String → String) : List Value → List Value
  | [] => []
  | v :: rest => mapDirectives keyword f v :: mapItems keyword f rest

end

variable {keyword : String} {f g : String → String} {route : Option Key}

theorem mapEntries_eq (es : List (Key × Value)) :
    mapEntries keyword f route es = es.map fun x => (x.1, mapUnder keyword f route x.1 x.2) := by
  induction es with
  | nil => rfl
  | cons x rest ih => rw [mapEntries, ih, List.map_cons]

theorem mapMembers_eq (ps : List (Key × Value)) :
    mapMembers keyword f ps = ps.map fun x => (x.1, mapDirectives keyword f x.2) := by
  induction ps with
  | nil => rfl
  | cons x rest ih => rw [mapMembers, ih, List.map_cons]

theorem mapItems_eq (vs : List Value) : mapItems keyword f vs = vs.map (mapDirectives keyword f) := by
  induction vs with
  | nil => rfl
  | cons v rest ih => rw [mapItems, ih, List.map_cons]

theorem find?_mapEntries (k : Key) (es : List (Key × Value)) :
    Entries.find? k (mapEntries keyword f route es) =
      (Entries.find? k es).map (mapUnder keyword f route k) := by
  rw [mapEntries_eq, Entries.find?_map]

/-! ### Positions of the rewritten schema -/

theorem hasProperties_mapEntries (es : List (Key × Value)) :
    hasProperties (mapEntries keyword f route es) = hasProperties es := by
  rw [hasProperties, hasProperties, Entries.has, Entries.has, find?_mapEntries, Option.isSome_map]

theorem array?_mapEntries (key : String) (es : List (Key × Value)) :
    array? key (mapEntries keyword f route es) =
      (array? key es).map fun vs =>
        if route = some (.text key) then vs.map (mapDirectives keyword f) else vs := by
  rw [array?_eq, array?_eq, find?_mapEntries]
  rcases Entries.find? (.text key) es with _ | v
  · rfl
  · cases v with
    | array vs =>
      by_cases hr : route = some (.text key) <;> simp [mapUnder, hr, items?, mapItems_eq]
    | text t => by_cases hk : key = keyword <;> simp [mapUnder, hk, items?]
    | object ps => by_cases hk : key = "properties" <;> simp [mapUnder, hk, items?]
    | _ => simp [mapUnder, items?]

theorem itemsKey_mapEntries (es : List (Key × Value)) :
    itemsKey (mapEntries keyword f route es) = itemsKey es := by
  simp only [itemsKey, hasProperties_mapEntries, hasArray_eq, array?_mapEntries, Option.isSome_map]

theorem length_positional?_mapEntries (es : List (Key × Value)) :
    (positional? (mapEntries keyword f route es)).map List.length =
      (positional? es).map List.length := by
  have harray : ∀ key, (array? key (mapEntries keyword f route es)).map List.length =
      (array? key es).map List.length := by
    intro key
    rw [array?_mapEntries, Option.map_map]
    refine congrArg (fun g => Option.map g _) (funext fun vs => ?_)
    rw [Function.comp_apply]
    split_ifs <;> simp
  rw [positional?, positional?, Option.map_or, Option.map_or, harray, harray]

/-- Where items lead to positions, the rewritten items do. -/
theorem positional?_mapEntries {es : List (Key × Value)} (hp : hasProperties es = false) :
    positional? (mapEntries keyword f (itemsKey es) es) =
      (positional? es).map (List.map (mapDirectives keyword f)) := by
  rw [positional?, positional?, array?_mapEntries, array?_mapEntries]
  cases hi : array? "items" es with
  | some vs =>
    have hroute : itemsKey es = some (.text "items") := by simp [itemsKey, hp, hasArray_eq, hi]
    simp [hroute]
  | none =>
    have hroute : itemsKey es = some (.text "prefixItems") := by
      simp [itemsKey, hp, hasArray_eq, hi]
    simp [hroute]

theorem parts_mapDirectives (v : Value) :
    parts (mapDirectives keyword f v) =
      (parts v).map fun x => (x.1, mapDirectives keyword f x.2) := by
  cases v with
  | object es =>
    rw [mapDirectives]
    cases hp : Entries.find? (.text "properties") es with
    | none =>
      have hplain : hasProperties es = false := by simp [hasProperties, Entries.has, hp]
      rw [parts_of_items ((hasProperties_mapEntries es).trans hplain), parts_of_items hplain,
        positional?_mapEntries hplain]
      cases positional? es with
      | none => rfl
      | some vs => exact slotsFrom_map _ _ _
    | some p =>
      have hroute : itemsKey es = none := by simp [itemsKey, hasProperties, Entries.has, hp]
      have hfound : Entries.find? (.text "properties") (mapEntries keyword f (itemsKey es) es) =
          some (mapUnder keyword f none (.text "properties") p) := by
        rw [find?_mapEntries, hp, hroute, Option.map_some]
      cases p with
      | object ps =>
        rw [mapUnder, if_pos rfl, mapMembers_eq] at hfound
        rw [parts_of_members hfound, parts_of_members hp, List.map_map, List.map_map]
        rfl
      | text t =>
        rw [mapUnder] at hfound
        split_ifs at hfound <;> simp only [parts, hfound, hp, List.map_nil]
      | _ => simp [parts, hfound, hp, mapUnder]
  | _ => rfl

/-- A schema keeps its positions when its directives are rewritten. -/
theorem positions_mapDirectives (v : Value) :
    positions (mapDirectives keyword f v) =
      (positions v).map fun y => (y.1, mapDirectives keyword f y.2) := by
  induction v using schemaBranching.ind with
  | h v ih =>
    rw [positions_eq, positions_eq, parts_mapDirectives, List.map_cons, List.map_flatMap,
      List.flatMap_map]
    refine congrArg _ (List.flatMap_congr fun x hx => ?_)
    rw [ih x hx, List.map_map, List.map_map]
    rfl

/-! ### Rewriting twice -/

mutual

theorem mapDirectives_comp : (v : Value) →
    mapDirectives keyword g (mapDirectives keyword f v) = mapDirectives keyword (g ∘ f) v
  | .object es => by simp only [mapDirectives, itemsKey_mapEntries, mapEntries_comp (itemsKey es)]
  | .null | .bool _ | .number _ | .text _ | .array _ | .special _ | .reference _ => rfl

theorem mapEntries_comp (route : Option Key) : (es : List (Key × Value)) →
    mapEntries keyword g route (mapEntries keyword f route es) = mapEntries keyword (g ∘ f) route es
  | [] => rfl
  | (k, v) :: rest => by simp only [mapEntries, mapUnder_comp route k v, mapEntries_comp route rest]

theorem mapUnder_comp (route : Option Key) (k : Key) : (v : Value) →
    mapUnder keyword g route k (mapUnder keyword f route k v) = mapUnder keyword (g ∘ f) route k v
  | .text t => by by_cases hk : k = .text keyword <;> simp [mapUnder, hk]
  | .object ps => by by_cases hk : k = .text "properties" <;> simp [mapUnder, hk, mapMembers_comp]
  | .array vs => by by_cases hr : route = some k <;> simp [mapUnder, hr, mapItems_comp]
  | .null | .bool _ | .number _ | .special _ | .reference _ => rfl

theorem mapMembers_comp : (ps : List (Key × Value)) →
    mapMembers keyword g (mapMembers keyword f ps) = mapMembers keyword (g ∘ f) ps
  | [] => rfl
  | (k, v) :: rest => by simp only [mapMembers, mapDirectives_comp, mapMembers_comp]

theorem mapItems_comp : (vs : List Value) →
    mapItems keyword g (mapItems keyword f vs) = mapItems keyword (g ∘ f) vs
  | [] => rfl
  | v :: rest => by simp only [mapItems, mapDirectives_comp, mapItems_comp]

end

/-! ### Compiling the rewritten schema -/

variable {r : Registry} {s s' : Settings}

theorem directiveOf_mapEntries (hk : s'.keyword = s.keyword)
    (hf : ∀ t, Directive.splitIn r (f t) s'.defaultFamily = Directive.splitIn r t s.defaultFamily)
    (es : List (Key × Value)) (path : String) :
    directiveOf r s' (mapEntries s.keyword f route es) path = directiveOf r s es path := by
  have htext : ∀ v, textOf? (mapUnder s.keyword f route (.text s.keyword) v) = (textOf? v).map f := by
    intro v
    cases v with
    | text t => simp [mapUnder, textOf?]
    | object ps => by_cases hp : s.keyword = "properties" <;> simp [mapUnder, hp, textOf?]
    | array vs => by_cases hr : route = some (.text s.keyword) <;> simp [mapUnder, hr, textOf?]
    | _ => rfl
  rw [directiveOf_eq_of_read, directiveOf_eq_of_read, hk, find?_mapEntries, Option.map_map]
  rcases Entries.find? (.text s.keyword) es with _ | v
  · rfl
  · simp only [Option.map_some, Function.comp_apply, htext]
    cases textOf? v with
    | none => rfl
    | some t => simp only [Option.map_some, hf]

theorem compileParts_map {h : Value → Value} {path : String} {l : List (Branch × Value)}
    (hl : ∀ x ∈ l, ∀ p, compileNode r s' (h x.2) p = compileNode r s x.2 p) :
    compileParts r s' path (l.map fun x => (x.1, h x.2)) = compileParts r s path l := by
  induction l with
  | nil => rfl
  | cons x l ih =>
    obtain ⟨hx, hl⟩ := List.forall_mem_cons.mp hl
    rw [List.map_cons, compileParts_cons, compileParts_cons, ih hl, hx]

/-- Directives that are split into the same make a schema compile alike, by whatever settings. -/
theorem compileNode_mapDirectives (hk : s'.keyword = s.keyword)
    (hf : ∀ t, Directive.splitIn r (f t) s'.defaultFamily = Directive.splitIn r t s.defaultFamily)
    (v : Value) (path : String) :
    compileNode r s' (mapDirectives s.keyword f v) path = compileNode r s v path := by
  induction v using schemaBranching.ind generalizing path with
  | h v ih =>
    cases v with
    | object es =>
      have hparts := @parts_mapDirectives s.keyword f (.object es)
      have hinferred : inferred (mapEntries s.keyword f (itemsKey es) es) = inferred es :=
        inferred_congr (hasProperties_mapEntries es) (length_positional?_mapEntries es)
      rw [mapDirectives] at hparts ⊢
      have hcompiled : compileParts r s' path ((parts (.object es)).map fun x =>
          (x.1, mapDirectives s.keyword f x.2)) = compileParts r s path (parts (.object es)) :=
        compileParts_map ih
      rw [compileNode_eq, compileNode_eq, directiveOf_mapEntries hk hf, hparts, hcompiled]
      simp only [assemble_congr hinferred, childrenOver, hasProperties_mapEntries]
    | _ => simp only [mapDirectives, compileNode]

/-! ### Families written out -/

/-- A schema whose directives name the families that they are split into. -/
def spellOut (r : Registry) (s : Settings) (schema : Value) : Value :=
  mapDirectives s.keyword (fun t => (Directive.splitIn r t s.defaultFamily).spelled) schema

/-- Every directive of a schema with its families written out names a registered family. -/
theorem spells_of_spellOut (hs : r.contains s.defaultFamily = true) {schema : Value}
    {way : List Branch} {es : List (Key × Value)} {t : String}
    (hes : (way, .object es) ∈ positions (spellOut r s schema))
    (ht : Entries.find? (.text s.keyword) es = some (.text t)) :
    ∃ d, Directive.Spells r t d := by
  rw [spellOut, positions_mapDirectives] at hes
  obtain ⟨⟨way', v⟩, -, heq⟩ := List.mem_map.mp hes
  cases v with
  | object fs =>
    obtain rfl := Value.object.inj (Prod.mk.inj heq).2
    rw [find?_mapEntries] at ht
    obtain ⟨w, -, hw⟩ := Option.map_eq_some_iff.mp ht
    cases w with
    | text u =>
      rw [mapUnder, if_pos rfl] at hw
      obtain rfl := Value.text.inj hw
      exact ⟨_, Registry.contains_splitIn hs u, rfl⟩
    | object ps => by_cases hp : s.keyword = "properties" <;> simp [mapUnder, hp] at hw
    | array vs => by_cases hr : itemsKey fs = some (.text s.keyword) <;> simp [mapUnder, hr] at hw
    | _ => simp [mapUnder] at hw
  | _ => simp [mapDirectives] at heq

theorem compile_spellOut_of_addressable (hr : r.Addressable) (hs : r.contains s.defaultFamily = true)
    {family : String} (hf : r.contains family = true) (schema : Value) :
    compile (spellOut r s schema) r { s with defaultFamily := family } = compile schema r s := by
  have hkeyword : ({ s with defaultFamily := family } : Settings).keyword = s.keyword := rfl
  have hsplit := fun t => Directive.splitIn_spelled hr hs t family
  have hnode : compileNode r { s with defaultFamily := family } (spellOut r s schema) rootPath =
      compileNode r s schema rootPath := compileNode_mapDirectives hkeyword hsplit schema rootPath
  unfold compile
  rw [hnode]
  simp [hs, hf]

theorem spellOut_spellOut (hr : r.Addressable) (hs : r.contains s.defaultFamily = true)
    (family : String) (schema : Value) :
    spellOut r { s with defaultFamily := family } (spellOut r s schema) = spellOut r s schema := by
  rw [spellOut, spellOut, mapDirectives_comp]
  refine congrArg (fun f => mapDirectives s.keyword f schema) (funext fun t => ?_)
  rw [Function.comp_apply, Directive.splitIn_spelled hr hs]

/-- With its families written out, a schema compiles to the same tree or the same failure, by every
default family that is registered, and there is nothing left to be written out. -/
theorem compile_spellOut (calls : List Registry.Registration) (s : Settings) (schema : Value)
    (hs : (Registry.built calls).contains s.defaultFamily = true) :
    let r := Registry.built calls
    compile (spellOut r s schema) r s = compile schema r s ∧
      spellOut r s (spellOut r s schema) = spellOut r s schema ∧
      ∀ family, r.contains family = true →
        compile (spellOut r s schema) r { s with defaultFamily := family } = compile schema r s ∧
        spellOut r { s with defaultFamily := family } (spellOut r s schema) =
          spellOut r s schema := by
  intro r
  have hr : r.Addressable := Registry.addressable_built calls
  refine ⟨?compile, ?again, fun family hf => ⟨?other, ?otherAgain⟩⟩
  case compile => exact compile_spellOut_of_addressable hr hs hs schema
  case again => exact spellOut_spellOut hr hs s.defaultFamily schema
  case other => exact compile_spellOut_of_addressable hr hs hf schema
  case otherAgain => exact spellOut_spellOut hr hs family schema

/-- A colon in an expression is kept behind the name of the default family. -/
theorem compile_spellOut_colon :
    let calls : List Registry.Registration :=
      [.representation .json, .representation .decimal] ++ Registry.builtinFamilies.map .family
    let r := Registry.built calls
    let s : Settings := { defaultFamily := "pointer" }
    let schema : Value := .object [(.text "bind", .text "/a:b"),
      (.text "items", .array [.object [(.text "bind", .text "nil:")]])]
    let spelt : Value := .object [(.text "bind", .text "pointer:/a:b"),
      (.text "items", .array [.object [(.text "bind", .text "nil:")]])]
    (r.contains "pointer" = true ∧ r.contains "nil" = true) ∧ spellOut r s schema = spelt ∧
      compile (spellOut r s schema) r { s with defaultFamily := "nil" } = compile schema r s := by
  intro calls r s schema spelt
  obtain ⟨-, -, hother⟩ := compile_spellOut calls s schema rfl
  exact ⟨⟨rfl, rfl⟩, rfl, (hother "nil" rfl).1⟩

end Reshape.Tree
