import Reshape.Proofs.JmesPath.Parsing
import Reshape.Strategy

/-! What the strategies that evaluate JMESPath find. Where the root of an expression is a projection
over a list, they find its matches: what its right hand side makes of the projected values, in their
order, without null. A match that stands for itself is thus never null, and neither is any other value
that is found: every list of values that a root gives is a list of matches, since no root is a bare
flattening, whose values may well be null. -/

namespace Reshape.JmesPath

/-! ### Projections -/

/-- What is left of the results of a right hand side. -/
def withoutNull (rs : List Value) : List Value := rs.filter fun r => !r.isNull

theorem project_eq_ok {right : Value → Result} {items ms : List Value} :
    project right items = .ok ms ↔
      ∃ rs, List.Forall₂ (fun x r => right x = .ok r) items rs ∧ ms = withoutNull rs := by
  induction items generalizing ms with
  | nil => simp [project, withoutNull, eq_comm]
  | cons x items ih =>
    simp only [project, Except.bind_eq_ok, ih, List.forall₂_cons_left_iff]
    constructor
    · rintro ⟨r, hr, _, ⟨rs, hrs, rfl⟩, hms⟩
      refine ⟨r :: rs, ⟨r, rs, hr, hrs, rfl⟩, ?_⟩
      cases hms
      cases hnull : r.isNull <;> simp [withoutNull, hnull]
    · rintro ⟨_, ⟨r, rs, hr, hrs, rfl⟩, rfl⟩
      refine ⟨r, hr, _, ⟨rs, hrs, rfl⟩, ?_⟩
      cases hnull : r.isNull <;> simp [withoutNull, hnull, pure, Except.pure]

/-- The items whose condition holds, of items with what their conditions evaluate to. -/
def satisfying (items conditions : List Value) : List Value :=
  ((items.zip conditions).filter fun x => !isFalse x.2).map Prod.fst

theorem satisfying_cons (x b : Value) (items bs : List Value) :
    satisfying (x :: items) (b :: bs) =
      if isFalse b then satisfying items bs else x :: satisfying items bs := by
  cases h : isFalse b <;> simp [satisfying, h]

/-- A filter projects the items that satisfy its condition. -/
theorem projectIf_eq_ok {condition right : Value → Result} {items ms : List Value} :
    projectIf condition right items = .ok ms ↔
      ∃ bs, List.Forall₂ (fun x b => condition x = .ok b) items bs ∧
        project right (satisfying items bs) = .ok ms := by
  induction items generalizing ms with
  | nil => simp [projectIf, project, satisfying]
  | cons x items ih =>
    simp only [projectIf, Except.bind_eq_ok, List.forall₂_cons_left_iff]
    constructor
    · rintro ⟨b, hb, h⟩
      split at h
      · next hfalse =>
        obtain ⟨bs, hbs, h⟩ := ih.mp h
        exact ⟨b :: bs, ⟨b, bs, hb, hbs, rfl⟩, by rwa [satisfying_cons, if_pos hfalse]⟩
      · next hfalse =>
        obtain ⟨r, hr, h⟩ := Except.bind_eq_ok.mp h
        obtain ⟨rs, hrs, h⟩ := Except.bind_eq_ok.mp h
        obtain ⟨bs, hbs, hproject⟩ := ih.mp hrs
        refine ⟨b :: bs, ⟨b, bs, hb, hbs, rfl⟩, ?_⟩
        rw [satisfying_cons, if_neg hfalse, project, hr, Except.ok_bind, hproject, Except.ok_bind]
        exact h
    · rintro ⟨_, ⟨b, bs, hb, hbs, rfl⟩, h⟩
      refine ⟨b, hb, ?_⟩
      rw [satisfying_cons] at h
      split_ifs at h ⊢
      · exact ih.mpr ⟨bs, hbs, h⟩
      · obtain ⟨r, hr, h⟩ := Except.bind_eq_ok.mp h
        obtain ⟨rs, hrs, h⟩ := Except.bind_eq_ok.mp h
        rw [hr, Except.ok_bind, ih.mpr ⟨bs, hbs, hrs⟩, Except.ok_bind]
        exact h

/-! ### Matches -/

/-- What an expression below the root evaluates to. -/
def Query.part (q : Query) (e : Expr) (v : Value) : Result := eval q.table (nestingLimit - 1) e v

/-- The values that the root projects, and what it does with each one: the items of a list, those that
satisfy a condition, or the values of an object. -/
inductive Query.Projected (q : Query) (d : Value) : Expr → List Value → Prop
  | projection {base right : Expr} {items : List Value} : q.root = .projection base right →
      q.part base d = .ok (.array items) → q.Projected d right items
  | filterProjection {base condition right : Expr} {items bs : List Value} :
      q.root = .filterProjection base condition right → q.part base d = .ok (.array items) →
      List.Forall₂ (fun x b => q.part condition x = .ok b) items bs →
      q.Projected d right (satisfying items bs)
  | valueProjection {base right : Expr} {es : List (Key × Value)} :
      q.root = .valueProjection base right → q.part base d = .ok (.object es) →
      q.Projected d right (es.map Prod.snd)

/-- The matches of a query whose root is a projection over a list, or over the values of an object. -/
def Query.Matches (q : Query) (d : Value) (ms : List Value) : Prop :=
  ∃ right items rs, q.Projected d right items ∧
    List.Forall₂ (fun x r => q.part right x = .ok r) items rs ∧ ms = withoutNull rs

theorem Query.matches_iff {q : Query} {d : Value} {ms : List Value} :
    q.Matches d ms ↔
      ∃ right items, q.Projected d right items ∧ project (q.part right) items = .ok ms := by
  simp only [Query.Matches, project_eq_ok, exists_and_left]

theorem ne_null_of_mem_withoutNull {rs : List Value} {v : Value} (h : v ∈ withoutNull rs) :
    v ≠ .null := by
  rintro rfl
  have := (List.mem_filter.mp h).2
  cases this

theorem Query.ne_null_of_matches {q : Query} {d : Value} {ms : List Value} (h : q.Matches d ms)
    {v : Value} (hv : v ∈ ms) : v ≠ .null := by
  obtain ⟨right, items, rs, -, -, rfl⟩ := h
  exact ne_null_of_mem_withoutNull hv

theorem Query.search_eq (q : Query) :
    ∃ refer, ∀ d, q.search d = evalWith q.part refer q.root d :=
  ⟨_, fun _ => rfl⟩

/-- The root of a query evaluates to an array of its matches, if it has any. -/
theorem Query.search_of_matches {q : Query} {d : Value} {ms : List Value} (h : q.Matches d ms) :
    q.search d = .ok (.array ms) ∧ q.root.projects = true := by
  obtain ⟨right, items, hitems, hproject⟩ := Query.matches_iff.mp h
  obtain ⟨refer, hsearch⟩ := q.search_eq
  rw [hsearch]
  cases hitems with
  | projection hroot hbase =>
    rw [hroot]
    simp only [evalWith, hbase, Except.ok_bind, hproject]
    exact ⟨rfl, rfl⟩
  | filterProjection hroot hbase hbs =>
    rw [hroot]
    simp only [evalWith, hbase, Except.ok_bind, projectIf_eq_ok.mpr ⟨_, hbs, hproject⟩]
    exact ⟨rfl, rfl⟩
  | valueProjection hroot hbase =>
    rw [hroot]
    simp only [evalWith, hbase, Except.ok_bind, hproject]
    exact ⟨rfl, rfl⟩

/-- A root that projects, and is not a bare flattening, evaluates to its matches or to null. -/
theorem Query.matches_or_null {q : Query} {d r : Value} (hprojects : q.root.projects = true)
    (hflat : q.root.isFlatten = false) (h : q.search d = .ok r) :
    (∃ ms, q.Matches d ms) ∨ r = .null := by
  obtain ⟨refer, hsearch⟩ := q.search_eq
  rw [hsearch] at h
  cases hroot : q.root with
  | projection base right =>
    rw [hroot] at h
    obtain ⟨v, hbase, h⟩ := Except.bind_eq_ok.mp h
    split at h
    · obtain ⟨ms, hproject, -⟩ := Except.bind_eq_ok.mp h
      exact .inl ⟨ms, Query.matches_iff.mpr ⟨_, _, .projection hroot hbase, hproject⟩⟩
    · cases h
      exact .inr rfl
  | filterProjection base condition right =>
    rw [hroot] at h
    obtain ⟨v, hbase, h⟩ := Except.bind_eq_ok.mp h
    split at h
    · obtain ⟨ms, hproject, -⟩ := Except.bind_eq_ok.mp h
      obtain ⟨bs, hbs, hproject⟩ := projectIf_eq_ok.mp hproject
      exact .inl ⟨ms, Query.matches_iff.mpr ⟨_, _, .filterProjection hroot hbase hbs, hproject⟩⟩
    · cases h
      exact .inr rfl
  | valueProjection base right =>
    rw [hroot] at h
    obtain ⟨v, hbase, h⟩ := Except.bind_eq_ok.mp h
    split at h
    · obtain ⟨ms, hproject, -⟩ := Except.bind_eq_ok.mp h
      exact .inl ⟨ms, Query.matches_iff.mpr ⟨_, _, .valueProjection hroot hbase, hproject⟩⟩
    · cases h
      exact .inr rfl
  | flatten base =>
    rw [hroot] at hflat
    cases hflat
  | _ =>
    rw [hroot] at hprojects
    cases hprojects

/-! ### Strategies -/

/-- The root of what is parsed is no bare flattening. -/
theorem parse_root_not_flatten {s : String} {q : Query} (h : parse s = .ok q) :
    q.root.isFlatten = false := by
  obtain ⟨ts, -, h⟩ := Except.bind_eq_ok.mp h
  obtain ⟨⟨e, c⟩, he, h⟩ := Except.bind_eq_ok.mp h
  simp only at h
  split at h
  · cases h
    exact expression_not_flatten _ _ _ _ _ he
  · cases h

theorem jmesPath_eq_ok {e : String} {s : Strategy} (h : Strategy.jmesPath e = .ok s) :
    ∃ q, parse e = .ok q ∧ s = ⟨"jmes", e, some "json", .jmesPath q⟩ := by
  unfold Strategy.jmesPath at h
  split at h <;> cases h
  exact ⟨_, ‹_›, rfl⟩

/-- Where there are no matches, the result stands for itself, and is found unless it is null. -/
theorem extraction_eq_result {q : Query} {r : Value}
    (h : q.root.projects = false ∨ r = .null) :
    Strategy.jmesPathExtraction q r = (r, !r.isNull) := by
  rcases h with h | rfl
  · cases r <;> simp [Strategy.jmesPathExtraction, h, Value.isNull]
  · rfl

theorem isNull_eq_true {v : Value} : v.isNull = true ↔ v = .null := by
  cases v <;> simp [Value.isNull]

/-- No match is null, one match stands for itself, and more are an array. -/
theorem shapeMatches_fst (ms : List Value) :
    ms = [] ∧ (shapeMatches ms).1 = .null ∨ ms = [(shapeMatches ms).1] ∨
      2 ≤ ms.length ∧ (shapeMatches ms).1 = .array ms := by
  match ms with
  | [] => exact .inl ⟨rfl, rfl⟩
  | [m] => exact .inr (.inl rfl)
  | _ :: _ :: _ => exact .inr (.inr ⟨by simp, rfl⟩)

/-- Where no match is null, something is found unless there is no match. -/
theorem shapeMatches_snd {ms : List Value} (h : ∀ v ∈ ms, v ≠ .null) :
    (shapeMatches ms).2 = true ↔ (shapeMatches ms).1 ≠ .null := by
  match ms, h with
  | [], _ => simp [shapeMatches]
  | [m], h => simp [shapeMatches, h m]
  | _ :: _ :: _, _ => simp [shapeMatches]

/-- What a JMESPath strategy finds is never null, and null is all that it ever fails to find. The
matches of a projection over a list are null if there are none, one match stands for itself, and more
are an array; otherwise the result of the evaluation is found as it is. -/
theorem extract_present_iff {e : String} {s : Strategy} (hs : Strategy.jmesPath e = .ok s) :
    ∃ q, parse e = .ok q ∧ ∀ d r, q.search d = .ok r → ∃ v present,
      s.extract d = .ok (v, present) ∧ (present = true ↔ v ≠ .null) ∧
      (∀ ms, q.Matches d ms → r = .array ms ∧
        (ms = [] ∧ v = .null ∨ ms = [v] ∨ 2 ≤ ms.length ∧ v = .array ms)) ∧
      ((∀ ms, ¬ q.Matches d ms) → v = r) := by
  obtain ⟨q, hq, rfl⟩ := jmesPath_eq_ok hs
  refine ⟨q, hq, fun d r hr => ?_⟩
  have hextract : Strategy.extract ⟨"jmes", e, some "json", .jmesPath q⟩ d =
      .ok (Strategy.jmesPathExtraction q r) := by
    simp only [Strategy.extract, hr]
  by_cases hmatches : ∃ ms, q.Matches d ms
  case pos =>
    obtain ⟨ms, hms⟩ := hmatches
    obtain ⟨hsearch, hprojects⟩ := Query.search_of_matches hms
    obtain rfl : r = .array ms := Except.ok.inj (hr.symm.trans hsearch)
    have hshape : Strategy.jmesPathExtraction q (.array ms) = shapeMatches ms := by
      simp only [Strategy.jmesPathExtraction, hprojects, if_true]
    rw [hshape] at hextract
    refine ⟨_, _, hextract, shapeMatches_snd fun _ => Query.ne_null_of_matches hms, ?_,
      fun h => absurd hms (h ms)⟩
    intro ms' hms'
    have hsame := hsearch.symm.trans (Query.search_of_matches hms').1
    obtain rfl : ms = ms' := Value.array.inj (Except.ok.inj hsame)
    exact ⟨rfl, shapeMatches_fst ms⟩
  case neg =>
    have hresult : q.root.projects = false ∨ r = .null := by
      cases hprojects : q.root.projects with
      | false => exact .inl rfl
      | true =>
        have hroot := parse_root_not_flatten hq
        exact .inr ((Query.matches_or_null hprojects hroot hr).resolve_left hmatches)
    rw [extraction_eq_result hresult] at hextract
    refine ⟨_, _, hextract, ?_, fun ms hms => absurd ⟨ms, hms⟩ hmatches, fun _ => rfl⟩
    rw [Bool.not_eq_true', ← Bool.not_eq_true, isNull_eq_true]

/-- Of what a flattening gives, one member is null and no match, so that the other stands for itself. -/
theorem extract_present_iff_flattened :
    let one : Value := .object [("b", .int 1)]
    let d : Value := .object [("a", .array [.array [one], .object [("b", .null)]])]
    ∃ s, Strategy.jmesPath "a[].b" = .ok s ∧ s.extract d = .ok (.int 1, true) := by
  intro one d
  let q : Query := ⟨.projection (.flatten (.field "a")) (.field "b"), []⟩
  have hparse : parse "a[].b" = .ok q := rfl
  have hs : Strategy.jmesPath "a[].b" = .ok ⟨"jmes", "a[].b", some "json", .jmesPath q⟩ := by
    simp only [Strategy.jmesPath, hparse]
  obtain ⟨q', hq', h⟩ := extract_present_iff hs
  obtain rfl : q = q' := Except.ok.inj (hparse.symm.trans hq')
  have hmatches : q.Matches d [.int 1] :=
    ⟨.field "b", [one, .object [("b", .null)]], [.int 1, .null],
      .projection rfl rfl, .cons rfl (.cons rfl .nil), rfl⟩
  obtain ⟨v, present, hextract, hpresent, hshape, -⟩ := h d (.array [.int 1]) rfl
  obtain ⟨h, -⟩ | h | ⟨h, -⟩ := (hshape _ hmatches).2
  · cases h
  · obtain rfl : .int 1 = v := List.head_eq_of_cons_eq h
    obtain rfl : present = true := hpresent.mpr nofun
    exact ⟨_, hs, hextract⟩
  · simp at h

end Reshape.JmesPath
