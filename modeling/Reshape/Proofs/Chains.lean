import Reshape.Proofs.JmesPath.Matches
import Reshape.Proofs.JmesPath.Names
import Reshape.Proofs.Json.Plain
import Reshape.Proofs.Json.Readings
import Reshape.Proofs.JsonPath.Chain
import Reshape.Proofs.Pointer.Resolution
import Reshape.Proofs.Registry

/-! Chains of keys, as each family that evaluates paths writes them. Where they can be read as chains at
all, the families find the same: where the members lead that the keys name. Only null counts as found
for some of them and not for JMESPath, and JSON paths cannot be evaluated if they are too long. -/

namespace Reshape.Chain

/-- A chain as the default family writes it. -/
def jmesText (ks : List String) : String := ".".intercalate ks

/-- A chain as a JSON path. -/
def jsonPathText (ks : List String) : String := "$." ++ ".".intercalate ks

/-- A chain as a pointer. -/
def pointerText (ks : List String) : String := "/" ++ "/".intercalate ks

/-- The text of each family is read as the chain of the very keys. -/
structure Legible (ks : List String) : Prop where
  jmes : JmesPath.parse (jmesText ks) = .ok ⟨JmesPath.chainOf ks, []⟩
  jsonPath : JsonPath.parse (jsonPathText ks) = some (JsonPath.chainOf ks)
  pointer : Pointer.parse (pointerText ks) = .ok ⟨ks⟩

/-- Letters, digits and underscores that start with no digit, and no operator of JSON paths. -/
def Ordinary (k : String) : Prop :=
  JmesPath.isName k = true ∧ k ≠ "where" ∧ k ≠ "wherenot"

variable {k : String} {ks : List String}

/-! ### Names -/

theorem jsonPath_isName (h : Ordinary k) : JsonPath.isName k = true := by
  obtain ⟨hname, hwhere, hwherenot⟩ := h
  obtain ⟨c, cs, hcs, hc, hinner⟩ := JmesPath.isName_iff.mp hname
  refine JsonPath.isName_iff.mpr ⟨⟨c, cs, hcs, hc, fun d hd => ?_⟩, ?_⟩
  · have := hinner d hd
    simp only [JmesPath.isInner, JsonPath.isInner] at this ⊢
    simp [this]
  · unfold JsonPath.word
    split
    · exact absurd rfl hwhere
    · exact absurd rfl hwherenot
    · rfl

theorem isInner_of_isName (h : JmesPath.isName k = true) {c : Char} (hc : c ∈ k.toList) :
    JmesPath.isInner c = true := by
  obtain ⟨d, ds, hds, hd, hinner⟩ := JmesPath.isName_iff.mp h
  rw [hds] at hc
  rcases List.mem_cons.mp hc with rfl | hc
  · rw [JmesPath.isStart, Bool.or_eq_true] at hd
    rw [JmesPath.isInner, Bool.or_eq_true, Char.isAlphanum, Bool.or_eq_true]
    exact hd.imp_left .inl
  · exact hinner c hc

/-- A name is no index. -/
theorem index?_of_isName (h : JmesPath.isName k = true) : Pointer.index? k = none := by
  obtain ⟨c, cs, hcs, hc, -⟩ := JmesPath.isName_iff.mp h
  have hdigit : c.isDigit = false := by
    rw [Bool.eq_false_iff]
    intro hd
    have hletter := JsonPath.toNat_of_isStart hc
    have hdigit := Text.toNat_of_isDigit hd
    omega
  have hzero : c ≠ '0' := by
    rintro rfl
    cases hdigit
  unfold Pointer.index?
  split
  · next heq =>
    rw [hcs] at heq
    exact absurd (List.cons.inj heq).1 hzero
  · next heq =>
    rw [hcs] at heq
    obtain ⟨rfl, rfl⟩ := List.cons.inj heq
    simp [hdigit]
  · rfl

/-- Names are written in a pointer as they are. -/
theorem escape_of_isName (h : JmesPath.isName k = true) : Pointer.escape k.toList = k.toList := by
  have hmem : ∀ c, JmesPath.isInner c = false → c ∉ k.toList := by
    intro c hc hm
    rw [isInner_of_isName h hm] at hc
    cases hc
  exact Pointer.escape_of_unescape (hmem '/' rfl) (Pointer.unescape_of_not_mem (hmem '~' rfl))

theorem pointer_parse (hne : ks ≠ []) (hks : ∀ k ∈ ks, JmesPath.isName k = true) :
    Pointer.parse (pointerText ks) = .ok ⟨ks⟩ := by
  have hslashes : '/' :: ("/".intercalate ks).toList = ks.flatMap fun k => '/' :: k.toList :=
    Text.cons_toList_intercalate rfl hne
  have hspell : Pointer.spell ks = ks.flatMap fun k => '/' :: k.toList := by
    clear hne hslashes
    induction ks with
    | nil => rfl
    | cons k ks ih =>
      obtain ⟨hk, hks⟩ := List.forall_mem_cons.mp hks
      rw [Pointer.spell, List.flatMap_cons, escape_of_isName hk, List.flatMap_cons, ← ih hks]
      rfl
  rw [Pointer.parse_eq_ok_iff, pointerText, String.toList_append, hspell, ← hslashes]
  rfl

/-- A pointer of names follows them as members: no name is an index. -/
theorem walk_eq_follow? (hks : ∀ k ∈ ks, JmesPath.isName k = true) (v : Value) :
    Pointer.walk ks v = v.follow? ks := by
  induction ks generalizing v with
  | nil => rfl
  | cons k ks ih =>
    obtain ⟨hk, hks⟩ := List.forall_mem_cons.mp hks
    have hstep : Pointer.step k v = v.get? k := by
      cases v with
      | array items => rw [Pointer.step_array, index?_of_isName hk]; rfl
      | _ => rfl
    rw [Pointer.walk, Value.follow?, hstep]
    congr 1
    funext w
    exact ih hks w

theorem legible_of_ordinary (hne : ks ≠ []) (hks : ∀ k ∈ ks, Ordinary k) : Legible ks :=
  ⟨JmesPath.parse_chain hne fun k hk => (hks k hk).1,
    JsonPath.parse_chain hne fun k hk => jsonPath_isName (hks k hk),
    pointer_parse hne fun k hk => (hks k hk).1⟩

theorem Legible.isName (h : Legible ks) : ∀ k ∈ ks, JmesPath.isName k = true :=
  fun _ hk => JmesPath.isName_of_parse h.jmes hk

/-! ### Strategies -/

/-- The strategy that a family of JSON paths makes of a chain. -/
theorem create_jsonPath (h : Legible ks) {name representation : String}
    (hfamily : Registry.default.find? name =
      some ⟨name, some representation, Strategy.jsonPath name representation⟩) :
    Registry.default.create name (jsonPathText ks) =
      .ok ⟨name, jsonPathText ks, some representation, .jsonPath (JsonPath.chainOf ks)⟩ :=
  Registry.create_eq_ok.mpr ⟨_, hfamily, by simp only [Strategy.jsonPath, h.jsonPath], rfl⟩

theorem create_jmes (h : Legible ks) : Registry.default.create "jmes" (jmesText ks) =
    .ok ⟨"jmes", jmesText ks, some "json", .jmesPath ⟨JmesPath.chainOf ks, []⟩⟩ :=
  Registry.create_eq_ok.mpr ⟨_, rfl, by simp only [Strategy.jmesPath, h.jmes], rfl⟩

theorem create_pointer (h : Legible ks) : Registry.default.create "pointer" (pointerText ks) =
    .ok ⟨"pointer", pointerText ks, some "json", .pointer ⟨ks⟩⟩ :=
  Registry.create_eq_ok.mpr ⟨_, rfl, by simp only [Strategy.pointer, h.pointer], rfl⟩

/-! ### Extraction -/

theorem shapeMatches_toList (o : Option Value) : shapeMatches o.toList = (o.getD .null, o.isSome) := by
  cases o <;> rfl

theorem extract_jsonPath {name text representation : String} (hne : ks ≠ [])
    (hshort : ks.length + 2 ≤ JsonPath.depthLimit) (v : Value) :
    Strategy.extract ⟨name, text, some representation, .jsonPath (JsonPath.chainOf ks)⟩ v =
      .ok ((v.follow? ks).getD .null, (v.follow? ks).isSome) := by
  simp only [Strategy.extract, JsonPath.search_chain hne hshort, shapeMatches_toList]

theorem extract_jsonPath_long {name text representation : String} (hne : ks ≠ [])
    (hlong : JsonPath.depthLimit < ks.length + 2) (v : Value) :
    Strategy.extract ⟨name, text, some representation, .jsonPath (JsonPath.chainOf ks)⟩ v =
      .error (.crash .tooDeep) := by
  simp only [Strategy.extract, JsonPath.search_long hne hlong]

theorem extract_pointer (h : Legible ks) {text : String} (v : Value) :
    Strategy.extract ⟨"pointer", text, some "json", .pointer ⟨ks⟩⟩ v =
      .ok ((v.follow? ks).getD .null, (v.follow? ks).isSome) := by
  have hwalk : Strategy.extract ⟨"pointer", text, some "json", .pointer ⟨ks⟩⟩ v =
      .ok (Strategy.found (Pointer.walk ks v)) := rfl
  rw [hwalk, walk_eq_follow? h.isName]
  cases v.follow? ks <;> rfl

theorem extract_jmes {text : String} (hne : ks ≠ []) (v : Value) :
    Strategy.extract ⟨"jmes", text, some "json", .jmesPath ⟨JmesPath.chainOf ks, []⟩⟩ v =
      .ok ((v.follow? ks).getD .null,
        (v.follow? ks).isSome && !((v.follow? ks).getD .null).isNull) := by
  have hroot := JmesPath.chainOf_projects ks
  simp only [Strategy.extract, JmesPath.search_chain hne]
  rw [JmesPath.extraction_eq_result (.inl hroot)]
  cases v.follow? ks <;> rfl

/-- The longest chain of keys that JSON paths can follow. -/
def lengthLimit : Nat := 968

theorem reread_follow? {v w : Value} (h : Json.Reread v w) (ks : List String) :
    Option.Rel Json.Reread (v.follow? ks) (w.follow? ks) := by
  induction ks generalizing v w with
  | nil => exact .some h
  | cons k ks ih =>
    rw [Value.follow?, Value.follow?]
    have hmember := h.get? k
    generalize v.get? k = o, w.get? k = p at hmember
    cases hmember with
    | none => exact .none
    | some h => exact ih h

theorem exists_reaches_iff {v : Value} (hv : v.Keyed) (ks : List String) :
    (v.follow? ks).isSome = true ↔ ∃ u, v.Reaches ks u := by
  simp only [Option.isSome_iff_exists, Value.follow?_eq_some_iff hv]

theorem reaches_of_isSome {v : Value} (hv : v.Keyed) (h : (v.follow? ks).isSome = true) :
    v.Reaches ks ((v.follow? ks).getD .null) := by
  obtain ⟨u, hu⟩ := Option.isSome_iff_exists.mp h
  rw [hu]
  exact (Value.follow?_eq_some_iff hv).mp hu

end Reshape.Chain
