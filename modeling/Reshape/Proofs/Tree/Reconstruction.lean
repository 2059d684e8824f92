import Reshape.Proofs.Directive
import Reshape.Proofs.Json.Plain
import Reshape.Proofs.Pointer
import Reshape.Proofs.Tree.Compiled
import Reshape.Proofs.Tree.Transparency

/-! A document put together again from its leaves. The copying schema of a value has the shape of the
value, and every scalar and empty container is bound by its pointer. Compiled with the default
families, it binds the document that the value was read from to that value. -/

namespace Reshape.Tree

/-! ### Copying schemas -/

/-- The reference token of a member, with its escapes. -/
def memberToken : Key → String
  | .text s => String.ofList (Pointer.escape s.toList)
  | _ => ""

/-- Binds the value at a pointer. -/
def leafSchema (p : String) : Value := .object [("bind", .text ("pointer:" ++ p))]

mutual

/-- The schema that copies a value which stands at a pointer. -/
def copySchema (p : String) : Value → Value
  | .object (x :: es) => .object [("properties", .object (copyMembers p (x :: es)))]
  | .array (v :: vs) => .object [("items", .array (copyItems p 0 (v :: vs)))]
  | _ => leafSchema p

def copyMembers (p : String) : List (Key × Value) → List (Key × Value)
  | [] => []
  | (k, v) :: rest => (k, copySchema (p ++ "/" ++ memberToken k) v) :: copyMembers p rest

def copyItems (p : String) : Nat → List Value → List Value
  | _, [] => []
  | i, v :: rest => copySchema (p ++ "/" ++ toString i) v :: copyItems p (i + 1) rest

end

theorem length_copyItems (p : String) (i : Nat) (vs : List Value) :
    (copyItems p i vs).length = vs.length := by
  induction vs generalizing i with
  | nil => rfl
  | cons v rest ih => simp [copyItems, ih]

/-! ### Positions in the default registry -/

theorem strategyAt_of_make {f : Family} {name e path : String} {t : Strategy}
    (hf : Registry.default.find? name = some f) (hm : f.make e = .ok t)
    (hr : t.representation = f.representation) : strategyAt .default ⟨name, e⟩ path = .ok t := by
  have hcontains : Registry.default.contains name = true := by rw [Registry.contains, hf]; rfl
  have hcreate : Registry.default.create name e = .ok t := by
    rw [Registry.create, Registry.get, hf, Except.ok_bind, Family.create, hm, Except.ok_bind,
      if_pos hr]
    rfl
  simp only [strategyAt, hcontains, hcreate, Bool.not_true, Bool.false_eq_true, if_false]

theorem strategyAt_slice {n : Nat} (h : n < 10 ^ Json.digitLimit) (path : String) :
    strategyAt .default ⟨"slice", toString n⟩ path =
      .ok ⟨"slice", toString n, none, .sequence n⟩ := by
  have hfind : Registry.default.find? "slice" = some ⟨"slice", none, Strategy.sequence⟩ := rfl
  refine strategyAt_of_make hfind ?_ rfl
  simp only [Strategy.sequence, Text.readInteger?_toString h]
  simp

theorem strategyAt_pointer {p : String} {ts : List String} (h : Pointer.parse p = .ok ⟨ts⟩)
    (path : String) :
    strategyAt .default ⟨"pointer", p⟩ path = .ok ⟨"pointer", p, some "json", .pointer ⟨ts⟩⟩ := by
  have hfind : Registry.default.find? "pointer" =
      some ⟨"pointer", some "json", Strategy.pointer⟩ := rfl
  refine strategyAt_of_make hfind ?_ rfl
  simp only [Strategy.pointer, h]

theorem compileNode_leaf {p : String} {ts : List String} (h : Pointer.parse p = .ok ⟨ts⟩)
    (path : String) :
    compileNode .default {} (leafSchema p) path =
      .ok (some (.mk path ⟨"pointer", p, some "json", .pointer ⟨ts⟩⟩ .leaf)) := by
  have htext : "pointer:" ++ p = "pointer" ++ ":" ++ p := rfl
  have hsplit : Directive.splitIn .default ("pointer:" ++ p) "jmes" = ⟨"pointer", p⟩ := by
    rw [htext, Directive.splitIn]
    exact Directive.split_append p rfl (by decide) (by decide) (by decide)
  have hdirective : directiveOf .default {} [("bind", .text ("pointer:" ++ p))] path =
      .ok (some ⟨"pointer", p⟩) := by
    rw [← hsplit]
    rfl
  have hchildren : childrenOf .default {} [("bind", .text ("pointer:" ++ p))] path = .ok .leaf := rfl
  rw [leafSchema, compileNode_object, hdirective, hchildren]
  simp only [Except.ok_bind, assemble, strategyAt_pointer h]
  rfl

theorem compileNode_members {ps : List (Key × Value)} {nodes : List (Key × Node)} {path : String}
    (h : compileNamed .default {} ps path = .ok nodes) (hne : nodes ≠ []) :
    compileNode .default {} (.object [("properties", .object ps)]) path =
      .ok (some (.mk path .mapping (.named nodes))) := by
  have hdirective : directiveOf .default {} [("properties", .object ps)] path = .ok none := rfl
  have hchildren : childrenOf .default {} [("properties", .object ps)] path = .ok (.named nodes) := by
    have hprops : childrenOf .default {} [("properties", .object ps)] path =
        (compileNamed .default {} ps path >>= fun nodes => pure (namedChildren nodes)) := rfl
    rw [hprops, h]
    cases nodes with
    | nil => exact absurd rfl hne
    | cons x rest => rfl
  rw [compileNode_object, hdirective, hchildren]
  rfl

theorem compileNode_items {vs : List Value} {nodes : List Node} {path : String}
    (h : compileItems .default {} vs path 0 = .ok (nodes.map some)) (hne : nodes ≠ [])
    (hl : vs.length < 10 ^ Json.digitLimit) :
    compileNode .default {} (.object [("items", .array vs)]) path =
      .ok (some (.mk path ⟨"slice", toString vs.length, none, .sequence vs.length⟩
        (.indexed (nodes.map some)))) := by
  have hdirective : directiveOf .default {} [("items", .array vs)] path = .ok none := rfl
  have hchildren : childrenOf .default {} [("items", .array vs)] path =
      .ok (.indexed (nodes.map some)) := by
    have hitems : childrenOf .default {} [("items", .array vs)] path =
        (compileItems .default {} vs path 0 >>= fun slots => pure (indexedChildren slots)) := rfl
    rw [hitems, h]
    cases nodes with
    | nil => exact absurd rfl hne
    | cons x rest => rfl
  have hinferred : inferred [("items", .array vs)] = ⟨"slice", toString vs.length⟩ := rfl
  rw [compileNode_object, hdirective, hchildren]
  simp only [Except.ok_bind, assemble, hinferred, strategyAt_slice hl]
  rfl

/-! ### Nodes that yield a value -/

/-- A node that binds a value, whatever the cache of the document was used for before. -/
def Yields (raw : Text.Bytes) (n : Node) (v : Value) : Prop :=
  ∀ s, s.cache.Sound raw Registry.default.representations → (bind none n s).1 = .ok (v, true)

variable {raw : Text.Bytes}

theorem yields_leaf {doc v : Value} (hdoc : Representation.json.build 0 raw = .ok doc)
    {ts : List String} (hv : Pointer.walk ts doc = some v) (path p : String) :
    Yields raw (.mk path ⟨"pointer", p, some "json", .pointer ⟨ts⟩⟩ .leaf) v := by
  intro s hs
  let n := Node.mk path ⟨"pointer", p, some "json", .pointer ⟨ts⟩⟩ .leaf
  have hanswer : Cache.answer raw "json" Registry.default.representations = .ok doc := by
    have hfirst : Cache.answer raw "json" Registry.default.representations =
        (Representation.json.build 0 raw).mapError (·.report "json") := rfl
    rw [hfirst, hdoc]
    rfl
  have hextract : extraction n s = .ok (v, true) := by
    rw [extraction, (extractFrom_sound hs _).1, extractAnew]
    simp only [n, Node.strategy, hanswer, Except.bind, Strategy.extract, Pointer.resolve, hv,
      Strategy.found]
  have ho : ownStep n s = .ok (v, true) := ownStep_eq_ok.mpr ⟨hextract, fun _ => rfl⟩
  have hbelow : below n (v, true) = [] := below_eq (by simp)
  change (bind none n s).1 = .ok (v, true)
  simp only [bind_eq, poll, ho, hbelow, gather, fst_finish, Except.map]
  simp

/-- Children that yield values are gathered with them. -/
theorem gather_yields {l : List (Branch × Node)} {xs : List (Branch × Value)}
    (h : List.Forall₂ (fun x y => x.1 = y.1 ∧ Yields raw x.2 y.2) l xs) {s : Session}
    (hs : s.cache.Sound raw Registry.default.representations) : (gather none l s).1 = .ok xs := by
  induction h generalizing s with
  | nil => rfl
  | @cons x y l xs hxy _ ih =>
    obtain ⟨hb, hy⟩ := hxy
    have hsound := (bind_alike none x.2 ⟨hs, hs, rfl, rfl⟩).2.left
    have hx := hy s hs
    simp only [gather]
    rcases hr : bind none x.2 s with ⟨r, t⟩
    rw [hr] at hx hsound
    obtain rfl : r = .ok (y.2, true) := hx
    have hrest := ih hsound
    simp only
    rcases hg : gather none l t with ⟨q, u⟩
    rw [hg] at hrest
    obtain rfl : q = .ok xs := hrest
    simp [hb]

/-- A node with a match binds what its children yield. -/
theorem yields_of_gather {n : Node} {e : Extraction} {xs : List (Branch × Value)}
    (ho : ∀ s, ownStep n s = .ok e) (hne : e ≠ (.null, false)) (hxs : xs ≠ [])
    (h : List.Forall₂ (fun x y => x.1 = y.1 ∧ Yields raw x.2 y.2) n.children.filled xs) :
    Yields raw n (e.1.write xs) := by
  intro s hs
  have hafter : (after n s).cache.Sound raw Registry.default.representations :=
    (extractFrom_sound hs n.strategy).2
  have hg := gather_yields h hafter
  simp only [bind_eq, poll, ho, below_eq hne, fst_finish, hg]
  simp [Except.map, hxs]

theorem yields_members {path : String} {nodes : List (Key × Node)} {es : List (Key × Value)}
    (hn : (Entries.keys es).Nodup) (hne : es ≠ [])
    (h : List.Forall₂ (fun x y => x.1 = y.1 ∧ Yields raw x.2 y.2) nodes es) :
    Yields raw (.mk path .mapping (.named nodes)) (.object es) := by
  have hwrite : (Value.object []).write (es.map fun x => (.name x.1, x.2)) = .object es :=
    Value.write_members hn
  rw [← hwrite]
  refine yields_of_gather (e := (.object [], false)) (fun s => rfl) (by simp) (by simpa using hne) ?_
  simp only [Node.children, Children.filled, List.forall₂_map_left_iff, List.forall₂_map_right_iff]
  exact h.imp fun x y hxy => ⟨congrArg Branch.name hxy.1, hxy.2⟩

theorem forall₂_slotsFrom {nodes : List Node} {vs : List Value}
    (h : List.Forall₂ (Yields raw) nodes vs) (i : Nat) :
    List.Forall₂ (fun x y => x.1 = y.1 ∧ Yields raw x.2 y.2) (slotsFrom i nodes)
      (slotsFrom i vs) := by
  induction h generalizing i with
  | nil => exact .nil
  | cons hnv _ ih => exact .cons ⟨rfl, hnv⟩ (ih (i + 1))

theorem yields_items {path expression : String} {nodes : List Node} {vs : List Value}
    (hl : vs.length ≤ Sequence.memoryLimit) (hne : vs ≠ []) (h : List.Forall₂ (Yields raw) nodes vs) :
    Yields raw (.mk path ⟨"slice", expression, none, .sequence vs.length⟩
      (.indexed (nodes.map some))) (.array vs) := by
  have hwrite : (Value.array (List.replicate vs.length .null)).write (slotsFrom 0 vs) =
      .array vs := by
    simpa using Value.write_items [] vs .null
  rw [← hwrite]
  refine yields_of_gather (e := (.array (List.replicate vs.length .null), false)) ?_ (by simp) ?_ ?_
  · intro s
    have hlimits : Sequence.memoryLimit ≤ Sequence.sizeLimit := by decide
    have hsize : ¬ vs.length > Sequence.sizeLimit := Nat.not_lt.mpr (hl.trans hlimits)
    have hextract : Strategy.extract ⟨"slice", expression, none, .sequence vs.length⟩ .null =
        .ok (.array (List.replicate vs.length .null), false) := by
      simp only [Strategy.extract, hsize, Nat.not_lt.mpr hl, if_false]
    refine ownStep_eq_ok.mpr ⟨hextract, fun _ => ?_⟩
    have hnodes : nodes.length = vs.length := h.length_eq
    simp [Node.children, fits, hnodes]
  · cases vs with
    | nil => exact absurd rfl hne
    | cons v rest => simp [slotsFrom]
  · simp only [Node.children, Children.filled, Children.filledFrom_map_some]
    exact forall₂_slotsFrom h 0

/-- The length of every array that can be held is short enough to be read as a numeral. -/
theorem lt_digitLimit : Sequence.memoryLimit < 10 ^ Json.digitLimit :=
  calc Sequence.memoryLimit < 10 ^ 10 := by decide
    _ ≤ 10 ^ Json.digitLimit := Nat.pow_le_pow_right (by decide) (by decide)

/-! ### Reconstruction -/

/-- A schema that compiles, at every path, to a node that yields the value. -/
def Copies (raw : Text.Bytes) (schema v : Value) : Prop :=
  ∀ path, ∃ n, compileNode .default {} schema path = .ok (some n) ∧ Yields raw n v

theorem copies_members {p : String} {es : List (Key × Value)}
    (h : ∀ x ∈ es, Copies raw (copySchema (p ++ "/" ++ memberToken x.1) x.2) x.2) (path : String) :
    ∃ nodes, compileNamed .default {} (copyMembers p es) path = .ok nodes ∧
      List.Forall₂ (fun x y => x.1 = y.1 ∧ Yields raw x.2 y.2) nodes es := by
  induction es with
  | nil => exact ⟨[], rfl, .nil⟩
  | cons x rest ih =>
    rcases x with ⟨k, v⟩
    obtain ⟨hx, hrest⟩ := List.forall_mem_cons.mp h
    obtain ⟨n, hn, hy⟩ := hx (namedPath path k)
    obtain ⟨nodes, hns, hys⟩ := ih hrest
    refine ⟨(k, n) :: nodes, ?_, .cons ⟨rfl, hy⟩ hys⟩
    simp only [copyMembers, compileNamed, hn, hns, Except.ok_bind]
    rfl

theorem copies_items {p : String} {i : Nat} {vs : List Value}
    (h : ∀ j v, vs[j]? = some v → Copies raw (copySchema (p ++ "/" ++ toString (i + j)) v) v)
    (path : String) :
    ∃ nodes, compileItems .default {} (copyItems p i vs) path i = .ok (nodes.map some) ∧
      List.Forall₂ (Yields raw) nodes vs := by
  induction vs generalizing i with
  | nil => exact ⟨[], rfl, .nil⟩
  | cons v rest ih =>
    obtain ⟨n, hn, hy⟩ := h 0 v rfl (indexedPath path i)
    obtain ⟨nodes, hns, hys⟩ := ih (i := i + 1) fun j w hj => by
      have := h (j + 1) w hj
      rwa [show i + (j + 1) = i + 1 + j by omega] at this
    refine ⟨n :: nodes, ?_, .cons hy hys⟩
    simp only [copyItems, compileItems, Nat.add_zero] at hn ⊢
    simp only [hn, hns, Except.ok_bind]
    rfl

theorem copies_leaf {doc v : Value} (hdoc : Representation.json.build 0 raw = .ok doc) {p : String}
    {ts : List String} (hp : Pointer.parse p = .ok ⟨ts⟩) (hv : Pointer.walk ts doc = some v) :
    Copies raw (leafSchema p) v :=
  fun path => ⟨_, compileNode_leaf hp path, yields_leaf hdoc hv path p⟩

/-- The copying schema of a part of the document copies that part. -/
theorem copies_copySchema {doc v : Value} (hdoc : Representation.json.build 0 raw = .ok doc)
    (hv : v.Plain) (hm : v.Held) {p : String} {ts : List String} (hp : Pointer.parse p = .ok ⟨ts⟩)
    (hw : Pointer.walk ts doc = some v) : Copies raw (copySchema p v) v := by
  -- the document stays the whole one; only the pointer into it grows
  induction hv generalizing p ts with
  | null => exact copies_leaf hdoc hp hw
  | bool b => exact copies_leaf hdoc hp hw
  | number n => exact copies_leaf hdoc hp hw
  | text s => exact copies_leaf hdoc hp hw
  | @array items _ ih =>
    cases items with
    | nil => exact copies_leaf hdoc hp hw
    | cons v rest =>
      obtain ⟨hl, hitems⟩ := hm.items
      have hcopies : ∀ j w, (v :: rest)[j]? = some w →
          Copies raw (copySchema (p ++ "/" ++ toString (0 + j)) w) w := by
        intro j w hj
        have hmem : w ∈ v :: rest := List.mem_of_getElem? hj
        rw [Nat.zero_add]
        refine ih w hmem (hitems w hmem) (Pointer.parse_index hp j) ?_
        rw [Pointer.walk_snoc, hw, Option.bind_some, Pointer.step, Pointer.index?_toString,
          Option.bind_some, hj]
      intro path
      obtain ⟨nodes, hn, hy⟩ := copies_items hcopies path
      have hlen := length_copyItems p 0 (v :: rest)
      refine ⟨_, compileNode_items hn ?_ ?_, ?_⟩
      · rintro rfl
        cases hy
      · rw [hlen]
        exact lt_of_le_of_lt hl lt_digitLimit
      · rw [hlen]
        exact yields_items hl (by simp) hy
  | @object es hn hk _ ih =>
    cases es with
    | nil => exact copies_leaf hdoc hp hw
    | cons x rest =>
      have hcopies : ∀ y ∈ x :: rest,
          Copies raw (copySchema (p ++ "/" ++ memberToken y.1) y.2) y.2 := by
        intro y hy
        obtain ⟨k, hkey⟩ := hk y.1 (List.mem_map_of_mem hy)
        have hfind : Entries.find? (.text k) (x :: rest) = some y.2 := by
          rw [← hkey]
          exact Entries.find?_of_mem hn hy
        rw [hkey]
        refine ih y hy (hm.member hy) (Pointer.parse_member hp k) ?_
        rw [Pointer.walk_snoc, hw, Option.bind_some, Pointer.step, hfind]
      intro path
      obtain ⟨nodes, hnodes, hy⟩ := copies_members hcopies path
      refine ⟨_, compileNode_members hnodes ?_, yields_members hn (by simp) hy⟩
      rintro rfl
      cases hy

/-- A document is put together again by the copying schema of its value. -/
theorem compile_copySchema {d : Value} (hd : Representation.json.build 0 raw = .ok d) (hm : d.Held) :
    ∃ n, compile (copySchema "" d) .default {} = .ok n ∧
      (bind none n (.ofCache (Cache.ofDocument raw Registry.default.representations))).1 =
        .ok (d, true) := by
  have hplain : d.Plain := by
    have hbuild : Representation.jsonBuild .nearest raw = .ok d := hd
    unfold Representation.jsonBuild at hbuild
    split at hbuild
    · next v hv =>
      obtain rfl := Except.ok.inj hbuild
      exact Json.parseBytes_plain hv
    · cases hbuild
  have hroot : Pointer.parse "" = .ok ⟨[]⟩ := rfl
  obtain ⟨n, hn, hy⟩ := copies_copySchema hd hplain hm hroot rfl rootPath
  refine ⟨n, ?_, hy _ (Cache.sound_ofDocument (steady_default raw))⟩
  have hjmes : Registry.default.contains "jmes" = true := rfl
  simp only [compile, hjmes, hn, Except.ok_bind]
  rfl

/-- The document is an object with one array, under a name of a slash and a tilde. -/
theorem compile_copySchema_escapes :
    let raw : Text.Bytes := [0x7b, 0x22, 0x2f, 0x7e, 0x22, 0x3a, 0x5b, 0x37, 0x5d, 0x7d]
    let d := Value.object [("/~", .array [.int 7])]
    Representation.json.build 0 raw = .ok d ∧ d.Held ∧
      ∃ n, compile (copySchema "" d) .default {} = .ok n ∧
        (bind none n (.ofCache (Cache.ofDocument raw Registry.default.representations))).1 =
          .ok (d, true) := by
  intro raw d
  have hdecode : Text.decodeDetected raw =
      .ok ['\x7b', '"', '/', '~', '"', ':', '[', '7', ']', '\x7d'] := by decide
  have hparse : Json.parseChars .nearest ['\x7b', '"', '/', '~', '"', ':', '[', '7', ']', '\x7d'] =
      .ok (.object [("/~", .array [.int 7])]) := rfl
  have hd : Representation.json.build 0 raw = .ok d := by
    simp only [Representation.json, Representation.jsonBuild, Json.parseBytes, hdecode, hparse, d]
  have hm : d.Held := by
    refine .object (List.forall_mem_singleton.mpr (.array (by decide) ?_))
    exact List.forall_mem_singleton.mpr (.atom (by simp) (by simp))
  exact ⟨hd, hm, compile_copySchema hd hm⟩

end Reshape.Tree
