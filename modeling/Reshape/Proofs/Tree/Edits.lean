import Reshape.Proofs.Tree.Congruence

/-! Edits of a schema that the compiler does not see. Only directives matter: foreign keys, whatever
holds no directive, members without directives, and the name of the array of items can be changed at
any position. Compiling gives the same tree, or the same failure at the same place. -/

namespace Reshape.Tree

/-! ### Edits -/

/-- The keys of a position that the compiler looks at. -/
def readKeys (keyword : String) : List Key :=
  [.text keyword, .text "properties", .text "items", .text "prefixItems"]

/-- The two names of the array of items, either one first. -/
inductive Renames : String → String → Prop
  | forth : Renames "items" "prefixItems"
  | back : Renames "prefixItems" "items"

/-- An edit of one position that neither adds nor removes a directive. -/
inductive Edit (keyword : String) : Value → Value → Prop
  /-- Keys that the compiler does not look at are added, removed, changed or moved. -/
  | foreign {es fs : List (Key × Value)} :
    (∀ k ∈ readKeys keyword, Entries.find? k fs = Entries.find? k es) →
    Edit keyword (.object es) (.object fs)
  /-- What holds no directive is replaced by something else that holds none. -/
  | barren {v w : Value} : contributes keyword v = false → contributes keyword w = false →
    Edit keyword v w
  /-- A member that holds no directive is added somewhere among the others. -/
  | member {front back ps qs : List (Key × Value)} {k : Key} {v : Value} :
    contributes keyword v = false →
    Edit keyword (.object (front ++ (.text "properties", .object (ps ++ qs)) :: back))
      (.object (front ++ (.text "properties", .object (ps ++ (k, v) :: qs)) :: back))
  /-- The array of items gets its other name, under which no array stands. -/
  | renamed {es fs : List (Key × Value)} {old new : String} {vs : List Value} :
    Renames old new → keyword ≠ old → keyword ≠ new →
    array? old es = some vs → array? new es = none →
    Entries.find? (.text new) fs = some (.array vs) → Entries.find? (.text old) fs = none →
    (∀ k ∈ readKeys keyword, k ≠ .text old → k ≠ .text new →
      Entries.find? k fs = Entries.find? k es) →
    Edit keyword (.object es) (.object fs)

/-- One edit, at the root or somewhere below it. -/
inductive Rewrite (keyword : String) : Value → Value → Prop
  | here {v w : Value} : Edit keyword v w → Rewrite keyword v w
  | member {v w : Value} (front back ps qs : List (Key × Value)) (k : Key) : Rewrite keyword v w →
    Rewrite keyword (.object (front ++ (.text "properties", .object (ps ++ (k, v) :: qs)) :: back))
      (.object (front ++ (.text "properties", .object (ps ++ (k, w) :: qs)) :: back))
  | item {v w : Value} {key : String} (front back : List (Key × Value)) (vs ws : List Value) :
    key = "items" ∨ key = "prefixItems" → Rewrite keyword v w →
    Rewrite keyword (.object (front ++ (.text key, .array (vs ++ v :: ws)) :: back))
      (.object (front ++ (.text key, .array (vs ++ w :: ws)) :: back))

/-- Schemas that edits lead to from one another, any number of them at any positions, each made or
undone. -/
abbrev Rewritten (keyword : String) : Value → Value → Prop := Relation.EqvGen (Rewrite keyword)

/-! ### Editing at a position -/

variable {keyword : String}

theorem exists_rewrite_of_member {es : List (Key × Value)} (hp : hasProperties es = true)
    {x : Branch × Value} (hx : x ∈ parts (.object es)) {w : Value} (h : Rewrite keyword x.2 w) :
    ∃ u, Rewrite keyword (.object es) u ∧ (x.1, w) ∈ parts u := by
  obtain ⟨ps, hps⟩ := members_of_part hp hx
  rw [parts_of_members hps] at hx
  obtain ⟨front, back, rfl, hfront⟩ := Entries.exists_front_of_find? hps
  obtain ⟨⟨k, v⟩, hmem, rfl⟩ := List.mem_map.mp hx
  obtain ⟨before, rest, rfl⟩ := List.append_of_mem hmem
  refine ⟨_, .member front back before rest k h, ?_⟩
  rw [parts_of_members (Entries.find?_of_front hfront _ back)]
  simp

/-- The array of items has one place, and what is put there becomes the items. -/
theorem exists_place_of_positional? {es : List (Key × Value)} {vs : List Value}
    (h : positional? es = some vs) :
    ∃ key front back, (key = "items" ∨ key = "prefixItems") ∧
      es = front ++ (.text key, .array vs) :: back ∧
      ∀ ws, positional? (front ++ (.text key, .array ws) :: back) = some ws := by
  rcases Option.or_eq_some_iff.mp h with hi | ⟨hnone, hq⟩
  · obtain ⟨front, back, rfl, hfront⟩ := Entries.exists_front_of_find? (find?_of_array? hi)
    refine ⟨"items", front, back, .inl rfl, rfl, fun ws => ?_⟩
    simp only [positional?, array?, Entries.find?_of_front hfront, Option.some_or]
  · obtain ⟨front, back, rfl, hfront⟩ := Entries.exists_front_of_find? (find?_of_array? hq)
    refine ⟨"prefixItems", front, back, .inr rfl, rfl, fun ws => ?_⟩
    have hitems : array? "items" (front ++ (.text "prefixItems", .array ws) :: back) = none := by
      rw [← hnone, array?, array?, Entries.find?_replace_of_ne (by decide)]
    rw [positional?, hitems, Option.none_or, array?, Entries.find?_of_front hfront]

theorem exists_rewrite_of_item {es : List (Key × Value)} (hp : hasProperties es = false)
    {x : Branch × Value} (hx : x ∈ parts (.object es)) {w : Value} (h : Rewrite keyword x.2 w) :
    ∃ u, Rewrite keyword (.object es) u ∧ (x.1, w) ∈ parts u := by
  rw [parts_of_items hp] at hx
  obtain ⟨j, hj, hget⟩ := mem_slotsFrom.mp hx
  cases hvs : positional? es with
  | none => simp [hvs] at hget
  | some vs =>
    rw [hvs, Option.getD_some] at hget
    obtain ⟨hlt, hvj⟩ := List.getElem?_eq_some_iff.mp hget
    -- the item stands in the array at the place that its branch tells
    have hsplit : vs = vs.take j ++ x.2 :: vs.drop (j + 1) := by
      rw [← hvj, ← List.drop_eq_getElem_cons hlt, List.take_append_drop]
    obtain ⟨key, front, back, hkey, rfl, hplace⟩ := exists_place_of_positional? hvs
    rw [hsplit] at hp ⊢
    refine ⟨_, .item front back _ _ hkey h, ?_⟩
    have hne : Key.text key ≠ .text "properties" := by rcases hkey with rfl | rfl <;> decide
    have hplain : hasProperties (front ++ (.text key,
        .array (vs.take j ++ w :: vs.drop (j + 1))) :: back) = false := by
      rw [← hp, hasProperties, hasProperties, Entries.has, Entries.has,
        Entries.find?_replace_of_ne hne]
    rw [parts_of_items hplain, hplace]
    exact mem_slotsFrom.mpr ⟨j, hj, by simp [List.length_take_of_le hlt.le]⟩

/-- A part can be edited where it stands. -/
theorem exists_rewrite_of_part {v w : Value} {x : Branch × Value} (hx : x ∈ parts v)
    (h : Rewrite keyword x.2 w) : ∃ u, Rewrite keyword v u ∧ (x.1, w) ∈ parts u := by
  cases v with
  | object es =>
    cases hp : hasProperties es with
    | true => exact exists_rewrite_of_member hp hx h
    | false => exact exists_rewrite_of_item hp hx h
  | _ => simp [parts] at hx

/-- Every position of a schema can be edited where it stands. -/
theorem exists_rewrite {S v w : Value} {way : List Branch} (hv : (way, v) ∈ positions S)
    (h : Edit keyword v w) : ∃ T, Rewrite keyword S T ∧ (way, w) ∈ positions T := by
  induction S using schemaBranching.ind generalizing way with
  | h S ih =>
    rcases schemaBranching.mem_places.mp hv with heq | ⟨x, hx, y, hy, heq⟩
    · obtain ⟨rfl, rfl⟩ := Prod.mk.inj heq
      exact ⟨w, .here h, schemaBranching.mem_places.mpr (.inl rfl)⟩
    · obtain ⟨rfl, rfl⟩ := Prod.mk.inj heq
      obtain ⟨u, hu, hw⟩ := ih x hx hy
      obtain ⟨T, hT, hpart⟩ := exists_rewrite_of_part hx hu
      exact ⟨T, hT, schemaBranching.mem_places.mpr (.inr ⟨(x.1, u), hpart, (y.1, w), hw, rfl⟩)⟩

variable {r : Registry} {s : Settings}

/-! ### Rows of values -/

theorem compileNamed_replace {v w : Value} (h : ∀ path, compileNode r s w path = compileNode r s v path)
    (ps qs : List (Key × Value)) (k : Key) (path : String) :
    compileNamed r s (ps ++ (k, w) :: qs) path = compileNamed r s (ps ++ (k, v) :: qs) path := by
  induction ps with
  | nil => simp only [List.nil_append, compileNamed, h]
  | cons x ps ih => simp only [List.cons_append, compileNamed, ih]

theorem compileNamed_insert {v : Value} (h : ∀ path, compileNode r s v path = .ok none)
    (ps qs : List (Key × Value)) (k : Key) (path : String) :
    compileNamed r s (ps ++ (k, v) :: qs) path = compileNamed r s (ps ++ qs) path := by
  induction ps with
  | nil =>
    simp only [List.nil_append, compileNamed, h]
    cases compileNamed r s qs path <;> rfl
  | cons x ps ih => simp only [List.cons_append, compileNamed, ih]

theorem compileItems_replace {v w : Value} (h : ∀ path, compileNode r s w path = compileNode r s v path)
    (vs ws : List Value) (path : String) (i : Nat) :
    compileItems r s (vs ++ w :: ws) path i = compileItems r s (vs ++ v :: ws) path i := by
  induction vs generalizing i with
  | nil => simp only [List.nil_append, compileItems, h]
  | cons x vs ih => simp only [List.cons_append, compileItems, ih]

/-! ### Compiling what was edited -/

theorem positional?_renamed {es fs : List (Key × Value)} {old new : String} {vs : List Value}
    (h : Renames old new) (hold : array? old es = some vs) (hnew : array? new es = none)
    (hnew' : Entries.find? (.text new) fs = some (.array vs))
    (hold' : Entries.find? (.text old) fs = none) : positional? fs = positional? es := by
  have hvs : array? new fs = some vs := by simp only [array?, hnew']
  have hnone : array? old fs = none := by simp only [array?, hold']
  cases h <;> simp only [positional?, hold, hnew, hvs, hnone, Option.or_none, Option.none_or]

/-- An edit is not seen by the compiler. -/
theorem compileNode_edit {v w : Value} (h : Edit s.keyword v w) (path : String) :
    compileNode r s w path = compileNode r s v path := by
  cases h with
  | @foreign es fs hread =>
    have hdirective := hread (.text s.keyword) (by simp [readKeys])
    have hproperties := hread (.text "properties") (by simp [readKeys])
    have hitems := hread (.text "items") (by simp [readKeys])
    have hprefix := hread (.text "prefixItems") (by simp [readKeys])
    have hpositional : positional? fs = positional? es := by
      simp only [positional?, array?, hitems, hprefix]
    refine compileNode_congr ?_ (by rw [hproperties]) (by rw [hpositional])
    simp only [directiveOf, hdirective]
  | barren hv hw => rw [compileNode_of_barren hv, compileNode_of_barren hw]
  | @member front back ps qs k v hv =>
    have hnone := compileNode_of_barren (r := r) hv
    exact compileNode_replace (readAlike_object (compileNamed_insert hnone ps qs k)) _ _ _ path
  | @renamed es fs old new vs hnames hkold hknew hold hnew hnew' hold' hread =>
    have hdirective : Entries.find? (.text s.keyword) fs = Entries.find? (.text s.keyword) es :=
      hread _ (by simp [readKeys]) (by simpa using hkold) (by simpa using hknew)
    have hproperties : Entries.find? (.text "properties") fs = Entries.find? (.text "properties") es :=
      hread _ (by simp [readKeys]) (by cases hnames <;> decide) (by cases hnames <;> decide)
    have hpositional := positional?_renamed hnames hold hnew hnew' hold'
    refine compileNode_congr ?_ (by rw [hproperties]) (by rw [hpositional])
    simp only [directiveOf, hdirective]

/-- Nor is it seen from the positions above it. -/
theorem compileNode_rewrite {v w : Value} (h : Rewrite s.keyword v w) (path : String) :
    compileNode r s w path = compileNode r s v path := by
  induction h generalizing path with
  | here h => exact compileNode_edit h path
  | member front back ps qs k _ ih =>
    exact compileNode_replace (readAlike_object (compileNamed_replace ih ps qs k)) _ _ _ path
  | item front back vs ws _ _ ih =>
    have hitems := fun path => compileItems_replace (r := r) (s := s) ih vs ws path 0
    exact compileNode_replace (readAlike_array (by simp) hitems) _ _ _ path

/-- Schemas that differ by such edits only compile to the same tree, or fail in the same way. -/
theorem compile_edited (r : Registry) (s : Settings) {S T : Value} (h : Rewritten s.keyword S T) :
    compile T r s = compile S r s := by
  induction h with
  | rel S T h => simp only [compile, compileNode_rewrite h]
  | refl S => rfl
  | symm S T _ ih => exact ih.symm
  | trans S T U _ _ ih ih' => exact ih'.trans ih

/-- A type and a member without directives go, `true` stands for the empty schema, and the items are
renamed. -/
theorem compile_edited_chain :
    let directive : Value := .object [(.text "bind", .text "name")]
    let dead : Value := .object [(.text "type", .text "number")]
    let before : Value := .object [(.text "items", .array [directive, .object []])]
    let behind : Value := .object [(.text "prefixItems", .array [directive, .bool true])]
    let S : Value := .object [(.text "type", .text "object"),
      (.text "properties", .object [(.text "a", before), (.text "b", dead)])]
    let T : Value := .object [(.text "properties", .object [(.text "a", behind)])]
    Rewritten "bind" S T ∧ compile T .default {} = compile S .default {} := by
  intro directive dead before behind S T
  let between : Value := .object [(.text "items", .array [directive, .bool true])]
  have hempty : contributes "bind" (.object []) = false := contributes_eq_false_of_leaf rfl rfl
  have htrue : contributes "bind" (.bool true) = false := contributes_eq_false_of_leaf rfl rfl
  have hdead : contributes "bind" dead = false := contributes_eq_false_of_leaf rfl rfl
  have htype : Rewrite "bind" S
      (.object [(.text "properties", .object [(.text "a", before), (.text "b", dead)])]) :=
    .here (.foreign (by simp [readKeys, Entries.find?]))
  have hmember : Rewrite "bind" (.object [(.text "properties", .object [(.text "a", before)])])
      (.object [(.text "properties", .object [(.text "a", before), (.text "b", dead)])]) :=
    .here (@Edit.member _ [] [] [(.text "a", before)] [] _ _ hdead)
  have hbarren : Rewrite "bind" (.object [(.text "properties", .object [(.text "a", before)])])
      (.object [(.text "properties", .object [(.text "a", between)])]) :=
    .member [] [] [] [] _ (.item [] [] [directive] [] (.inl rfl) (.here (.barren hempty htrue)))
  have hrenamed : Rewrite "bind" (.object [(.text "properties", .object [(.text "a", between)])]) T :=
    .member [] [] [] [] _ (.here (.renamed .forth (by decide) (by decide) rfl rfl rfl rfl
      (by simp [readKeys, Entries.find?])))
  have hchain : Rewritten "bind" S T :=
    .trans _ _ _ (.rel _ _ htype) (.trans _ _ _ (.symm _ _ (.rel _ _ hmember))
      (.trans _ _ _ (.rel _ _ hbarren) (.rel _ _ hrenamed)))
  exact ⟨hchain, compile_edited .default {} hchain⟩

end Reshape.Tree
