import Reshape.Proofs.Entries
import Reshape.Proofs.Schema.Uri
import Reshape.Schema.Scope

/-! The documents of the dated dialects in the library of every dialect. In such a document nothing but
the whole has an identifier. So looking through it adds no other name, and each document is found under
its own. -/

namespace Reshape

namespace Value

/-- Whether an object with these entries could be named by them, in any dialect. -/
def isNamed (es : List (Key × Value)) : Bool :=
  ["id", "$id"].any fun key =>
    match Entries.find? (.text key) es with
    | some (.text _) => true
    | _ => false

mutual

/-- Whether no object in a value could be named. -/
def isNameless : Value → Bool
  | .array items => areNameless items
  | .object es => !isNamed es && holdNameless es
  | _ => true

def areNameless : List Value → Bool
  | [] => true
  | v :: rest => v.isNameless && areNameless rest

def holdNameless : List (Key × Value) → Bool
  | [] => true
  | (_, v) :: rest => v.isNameless && holdNameless rest

end

theorem areNameless_iff {items : List Value} :
    areNameless items = true ↔ ∀ v ∈ items, v.isNameless = true := by
  induction items with
  | nil => simp [areNameless]
  | cons v rest ih => simp [areNameless, ih]

theorem holdNameless_iff {es : List (Key × Value)} :
    holdNameless es = true ↔ ∀ x ∈ es, x.2.isNameless = true := by
  induction es with
  | nil => simp [holdNameless]
  | cons x rest ih => simp [holdNameless, ih]

theorem isNameless_of_find? {es : List (Key × Value)} (h : holdNameless es = true) {k : Key} {v : Value}
    (hv : Entries.find? k es = some v) : v.isNameless = true :=
  holdNameless_iff.mp h _ (Entries.mem_of_find? hv)

end Value

namespace Schema

/-! ### Parts -/

theorem isNameless_of_partsOf {v : Value} (h : v.isNameless = true) {ps : List Value}
    (hp : partsOf v = .ok ps) : ∀ p ∈ ps, p.isNameless = true := by
  cases v with
  | array items =>
    obtain rfl := Except.ok.inj hp
    exact Value.areNameless_iff.mp (by simpa [Value.isNameless] using h)
  | text s =>
    obtain rfl := Except.ok.inj hp
    simp [Value.isNameless]
  | object es =>
    obtain rfl := Except.ok.inj hp
    rintro p hp
    obtain ⟨⟨k, v⟩, -, rfl⟩ := List.mem_map.mp hp
    cases k <;> rfl
  | _ => cases hp

theorem isNameless_of_entriesOf {v : Value} (h : v.isNameless = true) {es : List (Key × Value)}
    (hes : entriesOf v = .ok es) : ∀ x ∈ es, x.2.isNameless = true := by
  cases v with
  | object fs =>
    obtain rfl := Except.ok.inj hes
    simp only [Value.isNameless, Bool.and_eq_true] at h
    exact Value.holdNameless_iff.mp h.2
  | _ => cases hes

namespace Holders

variable {h : Holders} {es : List (Key × Value)}

theorem isNameless_of_find (hes : Value.holdNameless es = true) {keys : Holders → List String}
    {v : Value} (hv : v ∈ h.find es keys) : v.isNameless = true := by
  obtain ⟨key, -, hkey⟩ := List.mem_filterMap.mp hv
  exact Value.isNameless_of_find? hes hkey

theorem isNameless_of_itemsOf {v : Value} (h : v.isNameless = true) :
    ∀ p ∈ itemsOf v, p.isNameless = true := by
  cases v with
  | array items =>
    simp only [Value.isNameless] at h
    exact Value.areNameless_iff.mp h
  | _ => simp_all [itemsOf, Value.isNameless]

theorem isNameless_of_dependenciesOf {v : Value} (h : v.isNameless = true) {vs : List Value}
    (hvs : dependenciesOf v = .ok vs) : ∀ p ∈ vs, p.isNameless = true := by
  unfold dependenciesOf at hvs
  split at hvs
  · obtain rfl := Except.ok.inj hvs
    simp
  · obtain ⟨es, hes, hvs⟩ := Except.bind_eq_ok.mp hvs
    obtain rfl := Except.ok.inj hvs
    intro p hp
    split_ifs at hp
    · obtain ⟨x, hx, rfl⟩ := List.mem_map.mp hp
      exact isNameless_of_entriesOf h hes x hx
    · cases hp

theorem isNameless_of_findMixed (hes : Value.holdNameless es = true) {vs : List Value}
    (hvs : h.findMixed es = .ok vs) : ∀ p ∈ vs, p.isNameless = true := by
  have hunder : ∀ key : String,
      (if h.mixed.contains key then (Entries.find? (.text key) es).getD .null
        else .null).isNameless = true := by
    intro key
    split_ifs
    · cases hv : Entries.find? (.text key) es with
      | none => rfl
      | some v => exact Value.isNameless_of_find? hes hv
    · rfl
  obtain ⟨ds, hds, hvs⟩ := Except.bind_eq_ok.mp hvs
  obtain rfl := Except.ok.inj hvs
  intro p hp
  rcases List.mem_append.mp hp with hp | hp
  · exact isNameless_of_itemsOf (hunder _) p hp
  · exact isNameless_of_dependenciesOf (hunder _) hds p hp

/-- The schemas in a schema are parts of it. -/
theorem isNameless_of_schemasIn (hes : Value.holdNameless es = true) {vs : List Value}
    (hvs : h.schemasIn es = .ok vs) : ∀ p ∈ vs, p.isNameless = true := by
  obtain ⟨listed, hlisted, hvs⟩ := Except.bind_eq_ok.mp hvs
  obtain ⟨named, hnamed, hvs⟩ := Except.bind_eq_ok.mp hvs
  obtain ⟨mixed, hmixed, hvs⟩ := Except.bind_eq_ok.mp hvs
  obtain rfl := Except.ok.inj hvs
  intro p hp
  simp only [List.mem_append, List.mem_flatten, List.mem_map, List.mem_filter] at hp
  rcases hp with (((hp | ⟨ps, hps, hp⟩) | ⟨x, ⟨xs, hxs, hx⟩, rfl⟩) | hp) | ⟨hp, -⟩
  · exact isNameless_of_find hes hp
  · obtain ⟨v, hv, hvps⟩ := (Except.mem_of_mapM hlisted).mp hps
    exact isNameless_of_partsOf (isNameless_of_find hes hv) hvps p hp
  · obtain ⟨v, hv, hvxs⟩ := (Except.mem_of_mapM hnamed).mp hxs
    exact isNameless_of_entriesOf (isNameless_of_find hes hv) hvxs x hx
  · exact isNameless_of_findMixed hes hmixed p hp
  · exact isNameless_of_find hes hp

end Holders

namespace Resource

theorem contents_of_inside {d : Dialect} {v : Value} {r : Resource} (h : inside d v = .ok r) :
    r.contents = v := by
  unfold inside at h
  split at h <;> cases h <;> rfl

/-- Nothing that a resource holds could be named; it may be named itself. -/
def HoldsNameless (r : Resource) : Prop :=
  ∀ es, r.contents = .object es → Value.holdNameless es = true

theorem HoldsNameless.parts {r : Resource} (h : r.HoldsNameless) {ps : List Resource}
    (hps : r.parts = .ok ps) : ∀ p ∈ ps, p.contents.isNameless = true := by
  unfold Resource.parts at hps
  split at hps
  · next es hes =>
    obtain ⟨vs, hvs, hps⟩ := Except.bind_eq_ok.mp hps
    intro p hp
    obtain ⟨v, hv, hpv⟩ := (Except.mem_of_mapM hps).mp hp
    rw [contents_of_inside hpv]
    exact Holders.isNameless_of_schemasIn (h es hes) hvs v hv
  · obtain rfl := Except.ok.inj hps
    simp

theorem holdsNameless_of_isNameless {r : Resource} (h : r.contents.isNameless = true) :
    r.HoldsNameless := by
  intro es hes
  rw [hes, Value.isNameless, Bool.and_eq_true] at h
  exact h.2

theorem givenIdentifier?_of_isNamed {d : Dialect} {es : List (Key × Value)}
    (hes : Value.isNamed es = false) {id : Option String} (h : givenIdentifier? d es = .ok id) :
    id = none := by
  have hkey : idKey d ∈ ["id", "$id"] := by
    cases d <;> decide
  have hno := List.any_eq_false.mp hes _ hkey
  unfold givenIdentifier? at h
  split at h
  · exact (Except.ok.inj h).symm
  · exact (Except.ok.inj h).symm
  · next t ht => simp [ht] at hno
  · cases h

/-- An identifier is what the entries of an object give. -/
theorem identifier?_eq_ok {r : Resource} {id : Option String} (h : r.identifier? = .ok id) :
    id = none ∨ ∃ es t, r.contents = .object es ∧ givenIdentifier? r.dialect es = .ok (some t) := by
  have hgiven : ∀ {v : Value} {f : Option String → Option String}, f none = none →
      (do return f (← givenIdentifier? r.dialect (← entriesOf v))) = Except.ok id →
      id = none ∨ ∃ es t, v = .object es ∧ givenIdentifier? r.dialect es = .ok (some t) := by
    intro v f hf h
    obtain ⟨es, hes, h⟩ := Except.bind_eq_ok.mp h
    obtain ⟨given, hgiven, h⟩ := Except.bind_eq_ok.mp h
    obtain rfl := Except.ok.inj h
    cases v with
    | object fs =>
      obtain rfl := Except.ok.inj hes
      cases given with
      | none => exact .inl hf
      | some t => exact .inr ⟨_, t, rfl, hgiven⟩
    | _ => cases hes
  unfold identifier? at h
  split at h
  · split_ifs at h
    exact .inl (Except.ok.inj h).symm
  · split_ifs at h
    · obtain ⟨_ | _, -, h⟩ := Except.bind_eq_ok.mp h
      · exact hgiven rfl h
      · exact .inl (Except.ok.inj h).symm
    · exact hgiven rfl h

/-- What is nameless has no identifier. -/
theorem identifier?_of_isNameless {r : Resource} (hr : r.contents.isNameless = true)
    {id : Option String} (h : r.identifier? = .ok id) : id = none := by
  rcases identifier?_eq_ok h with rfl | ⟨es, t, hes, ht⟩
  · rfl
  · rw [hes, Value.isNameless, Bool.and_eq_true, Bool.not_eq_true'] at hr
    cases givenIdentifier?_of_isNamed hr.1 ht

end Resource

namespace Library

@[simp] theorem resources_addAnchors (l : Library) (uri : String) (as : List Anchor) :
    (l.addAnchors uri as).resources = l.resources := rfl

theorem resources_of_foldlM {f : Library → Resource → Except Crash Library} {rs : List Resource}
    (hf : ∀ r ∈ rs, ∀ l m, f l r = .ok m → m.resources = l.resources) {l m : Library}
    (h : rs.foldlM f l = .ok m) : m.resources = l.resources := by
  induction rs generalizing l with
  | nil =>
    obtain rfl := Except.ok.inj h
    rfl
  | cons r rest ih =>
    obtain ⟨hr, hrest⟩ := List.forall_mem_cons.mp hf
    rw [List.foldlM_cons] at h
    obtain ⟨k, hk, h⟩ := Except.bind_eq_ok.mp h
    rw [ih hrest h, hr l k hk]

theorem explore_succ (depth : Nat) (l : Library) (outer : String) (r : Resource) :
    explore (depth + 1) l outer r = (do
      let id ← r.identifier?
      let uri ← id.elim (pure outer) (Uri.join outer)
      let as ← r.anchors
      let parts ← r.parts
      parts.reverse.foldlM (fun l s => explore depth l uri s)
        ((if id.isSome then l.add uri r else l).addAnchors uri as)) := by
  rw [explore]
  rcases r.identifier? with c | _ | i <;> rfl

/-- Looking through a resource that holds nothing named makes at most the resource known. -/
theorem resources_of_explore {depth : Nat} {l m : Library} {outer : String} {r : Resource}
    (hr : r.HoldsNameless) (h : explore depth l outer r = .ok m) :
    m.resources = l.resources ∨ ∃ i uri, r.identifier? = .ok (some i) ∧
      Uri.join outer i = .ok uri ∧ m.resources = (uri, r) :: l.resources := by
  induction depth generalizing l m outer r with
  | zero =>
    obtain rfl := Except.ok.inj h
    exact .inl rfl
  | succ depth ih =>
    rw [explore_succ] at h
    obtain ⟨id, hid, h⟩ := Except.bind_eq_ok.mp h
    obtain ⟨uri, huri, h⟩ := Except.bind_eq_ok.mp h
    obtain ⟨as, -, h⟩ := Except.bind_eq_ok.mp h
    obtain ⟨ps, hps, h⟩ := Except.bind_eq_ok.mp h
    have hinside := resources_of_foldlM (fun p hp k n hn => ?parts) h
    case parts =>
      have hnameless := hr.parts hps p (List.mem_reverse.mp hp)
      rcases ih (Resource.holdsNameless_of_isNameless hnameless) hn with hsame | ⟨i, _, hi, -⟩
      · exact hsame
      · cases Resource.identifier?_of_isNameless hnameless hi
    rw [resources_addAnchors] at hinside
    cases id with
    | none => exact .inl hinside
    | some i => exact .inr ⟨i, uri, hid, huri, hinside⟩

/-- Whether looking through a resource succeeds does not depend on what is known. -/
theorem agrees_explore (depth : Nat) (l m : Library) (outer : String) (r : Resource) :
    (explore depth l outer r).Agrees (fun _ _ => True) (explore depth m outer r) := by
  induction depth generalizing l m outer r with
  | zero => exact .ok trivial
  | succ depth ih =>
    rw [explore_succ, explore_succ]
    refine .bind_same _ fun id => .bind_same _ fun uri => ?_
    refine .bind_same _ fun as => .bind_same _ fun ps => ?_
    generalize (if id.isSome then l.add uri r else l).addAnchors uri as = k
    generalize (if id.isSome then m.add uri r else m).addAnchors uri as = n
    induction ps.reverse generalizing k n with
    | nil => exact .ok trivial
    | cons p rest ihs =>
      rw [List.foldlM_cons, List.foldlM_cons]
      exact (ih k n uri p).bind fun k n _ _ _ => ihs k n

/-! ### Documents -/

/-- Adds a document, unless it cannot be looked through. -/
def install (l : Library) (x : Dialect × Value) : Library :=
  match rootUri ⟨x.1, x.2⟩ >>= fun uri => (l.add uri ⟨x.1, x.2⟩).absorb uri ⟨x.1, x.2⟩ with
  | .ok m => m
  | .error _ => l

theorem standard_eq : standard = Meta.documents.foldl install empty := rfl

/-- A document with an identifier, which resolves to itself, and nothing else that is named. -/
structure Stands (x : Dialect × Value) (uri : String) : Prop where
  identifier : (⟨x.1, x.2⟩ : Resource).identifier? = .ok (some uri)
  resolved : Uri.join uri uri = .ok uri
  nameless : (⟨x.1, x.2⟩ : Resource).HoldsNameless

variable {x : Dialect × Value} {uri : String}

theorem Stands.install_eq (h : Stands x uri) (l : Library) :
    install l x = match (l.add uri ⟨x.1, x.2⟩).absorb uri ⟨x.1, x.2⟩ with
      | .ok m => m
      | .error _ => l := by
  simp only [install, rootUri, h.identifier, Except.ok_bind, Option.getD_some]
  rfl

theorem Stands.resources (h : Stands x uri) {l m : Library}
    (hm : (l.add uri ⟨x.1, x.2⟩).absorb uri ⟨x.1, x.2⟩ = .ok m) :
    m.resources = (uri, ⟨x.1, x.2⟩) :: l.resources ∨
      m.resources = (uri, ⟨x.1, x.2⟩) :: (uri, ⟨x.1, x.2⟩) :: l.resources := by
  rcases resources_of_explore h.nameless hm with hm | ⟨i, j, hi, hj, hm⟩
  · exact .inl hm
  · obtain rfl : uri = i := by simpa [h.identifier] using hi
    obtain rfl : uri = j := by simpa [h.resolved] using hj
    exact .inr hm

/-- A document hides nothing of another name. -/
theorem Stands.resource?_install (h : Stands x uri) (l : Library) {name : String} (hn : name ≠ uri) :
    (install l x).resource? name = l.resource? name := by
  have hne : (name == uri) = false := by simpa using hn
  rw [h.install_eq]
  split
  · next m hm =>
    rcases h.resources hm with hm | hm <;> simp [resource?, hm, List.lookup_cons, hne]
  · rfl

/-- A document that can be looked through is found under its name. -/
theorem Stands.resource?_install_self (h : Stands x uri) (l : Library) {k m : Library}
    (hm : k.absorb uri ⟨x.1, x.2⟩ = .ok m) : (install l x).resource? uri = some ⟨x.1, x.2⟩ := by
  obtain ⟨n, hn⟩ := (agrees_explore _ k (l.add uri ⟨x.1, x.2⟩) uri _).ok_iff.mp ⟨m, hm⟩
  have habsorb : (l.add uri ⟨x.1, x.2⟩).absorb uri ⟨x.1, x.2⟩ = .ok n := hn
  rw [h.install_eq, habsorb]
  rcases h.resources habsorb with hn | hn <;> simp [resource?, hn]

theorem resource?_foldl {xs : List (Dialect × Value)} {name : String}
    (h : ∀ y ∈ xs, ∃ uri, Stands y uri ∧ name ≠ uri) (l : Library) :
    (xs.foldl install l).resource? name = l.resource? name := by
  induction xs generalizing l with
  | nil => rfl
  | cons y rest ih =>
    obtain ⟨⟨uri, hy, hne⟩, hrest⟩ := List.forall_mem_cons.mp h
    rw [List.foldl_cons, ih hrest, hy.resource?_install l hne]

/-- The last document of a name is found under it. -/
theorem resource?_standard {earlier later : List (Dialect × Value)}
    (hdocuments : Meta.documents = earlier ++ x :: later) (hx : Stands x uri)
    (hlater : ∀ y ∈ later, ∃ other, Stands y other ∧ uri ≠ other) {k m : Library}
    (hm : k.absorb uri ⟨x.1, x.2⟩ = .ok m) : standard.resource? uri = some ⟨x.1, x.2⟩ := by
  rw [standard_eq, hdocuments, List.foldl_append, List.foldl_cons, resource?_foldl hlater]
  exact hx.resource?_install_self _ hm

/-! ### Dated documents -/

/-- The identifier that a document of a dated dialect gives itself. -/
def nameOf (x : Dialect × Value) : String :=
  match x.2.get? "$id" with
  | some (.text uri) => uri
  | _ => ""

/-- Whether a document of a dated dialect can be known by its identifier alone. -/
def isPlain (x : Dialect × Value) : Bool :=
  match x.2 with
  | .object es => x.1.isDated && Uri.isProper (nameOf x) && Value.holdNameless es
  | _ => false

theorem stands_of_isPlain (h : isPlain x = true) : Stands x (nameOf x) := by
  obtain ⟨d, v⟩ := x
  unfold isPlain at h
  split at h
  · next es hes =>
    obtain rfl : v = .object es := hes
    simp only [Bool.and_eq_true] at h
    obtain ⟨⟨hdated, hproper⟩, hnameless⟩ := h
    have hid : Entries.find? (.text "$id") es = some (.text (nameOf (d, .object es))) := by
      unfold nameOf at hproper ⊢
      split at hproper
      · next uri huri =>
        exact huri
      · exact absurd hproper (by decide)
    have hkey : Resource.idKey d = "$id" := by
      cases d <;> first | rfl | cases hdated
    refine ⟨?_, Uri.join_self hproper, ?_⟩
    · simp [Resource.identifier?, hdated, entriesOf, Resource.givenIdentifier?, hkey, hid,
        withoutMark_self (Uri.getLast?_of_isProper hproper)]
    · intro fs hfs
      obtain rfl := Value.object.inj hfs
      exact hnameless
  · cases h

theorem isPlain2019 : (Meta.Draft2019.documents.map (Dialect.draft2019, ·)).all isPlain = true := by
  decide +kernel

theorem isPlain2020 : (Meta.Draft2020.documents.map (Dialect.draft2020, ·)).all isPlain = true := by
  decide +kernel

/-- A document of a dated dialect is found under its name, if none that comes later has the name. -/
theorem resource?_of_dated (i : Nat) (hi : 4 ≤ i) (hx : Meta.documents[i]? = some x)
    (hlater : ∀ y ∈ Meta.documents.drop (i + 1), nameOf x ≠ nameOf y)
    (hload : (absorb empty (nameOf x) ⟨x.1, x.2⟩).toOption.isSome = true) :
    standard.resource? (nameOf x) = some ⟨x.1, x.2⟩ := by
  have hstands : ∀ y ∈ Meta.documents.drop 4, Stands y (nameOf y) := by
    intro y hy
    rcases List.mem_append.mp hy with hy | hy
    · exact stands_of_isPlain (List.all_eq_true.mp isPlain2019 y hy)
    · exact stands_of_isPlain (List.all_eq_true.mp isPlain2020 y hy)
  obtain ⟨hlt, rfl⟩ := List.getElem?_eq_some_iff.mp hx
  have hdrop := List.drop_eq_getElem_cons hlt
  have hrest : ∀ y ∈ Meta.documents.drop i, y ∈ Meta.documents.drop 4 := by
    intro y hy
    exact (List.drop_subset_drop_left _ hi) hy
  have hdocuments : Meta.documents =
      Meta.documents.take i ++ Meta.documents[i] :: Meta.documents.drop (i + 1) := by
    rw [← hdrop, List.take_append_drop]
  obtain ⟨m, hm⟩ : ∃ m, absorb empty (nameOf Meta.documents[i])
      ⟨Meta.documents[i].1, Meta.documents[i].2⟩ = .ok m := by
    revert hload
    cases absorb empty (nameOf Meta.documents[i]) ⟨Meta.documents[i].1, Meta.documents[i].2⟩ <;>
      simp [Except.toOption]
  refine resource?_standard hdocuments (hstands _ (hrest _ ?_)) (fun y hy => ?_) hm
  · rw [hdrop]
    exact List.mem_cons_self
  · refine ⟨nameOf y, hstands y (hrest y ?_), hlater y hy⟩
    rw [hdrop]
    exact List.mem_cons_of_mem _ hy

/-- The documents that say what an identifier is in the dated dialects, by their names. -/
def cores : Dialect → List (String × Resource)
  | .draft2019 =>
    [(nameOf (.draft2019, Meta.Draft2019.core), ⟨.draft2019, Meta.Draft2019.core⟩)]
  | .draft2020 =>
    [(nameOf (.draft2020, Meta.Draft2020.core), ⟨.draft2020, Meta.Draft2020.core⟩)]
  | _ => []

theorem resource?_core2019 : standard.resource? (nameOf (.draft2019, Meta.Draft2019.core)) =
    some ⟨.draft2019, Meta.Draft2019.core⟩ :=
  resource?_of_dated 5 (by decide) rfl (by decide +kernel) (by decide +kernel)

theorem resource?_core2020 : standard.resource? (nameOf (.draft2020, Meta.Draft2020.core)) =
    some ⟨.draft2020, Meta.Draft2020.core⟩ :=
  resource?_of_dated 12 (by decide) rfl (by decide +kernel) (by decide +kernel)

theorem resource?_of_cores {d : Dialect} {r : Resource} (h : (cores d).lookup uri = some r) :
    standard.resource? uri = some r := by
  have hone : ∀ {name : String} {q : Resource}, [(name, q)].lookup uri = some r →
      uri = name ∧ q = r := by
    intro name q h
    rw [List.lookup_cons] at h
    split at h
    · next he => exact ⟨beq_iff_eq.mp he, Option.some.inj h⟩
    · cases h
  cases d with
  | draft2019 =>
    obtain ⟨rfl, rfl⟩ := hone h
    exact resource?_core2019
  | draft2020 =>
    obtain ⟨rfl, rfl⟩ := hone h
    exact resource?_core2020
  | _ => cases h

end Library

/-! ### Lookups -/

/-- Whatever is found in one table of resources is found in the other. -/
def Resources.Within (rs rs' : Resources) : Prop :=
  ∀ s ref found, lookup rs s ref = .ok found → lookup rs' s ref = .ok found

/-- What is found in a table that knows some resources, and no places in them by name, is found wherever
these resources are known. -/
theorem Resources.within_of_known {rs rs' : Resources} {c : Crash} (hexplored : rs.explored = .error c)
    (hanchors : rs.known.anchors = [])
    (hknown : ∀ uri r, rs.known.resource? uri = some r → rs'.known.resource? uri = some r) :
    rs.Within rs' := by
  intro s ref found h
  have hsearch : ∀ {α : Type} {isExplored : Bool} {find : Library → Option α} {x : Option (α × Bool)},
      rs.search isExplored find = .ok x →
      isExplored = false ∧ ∃ a, x = some (a, false) ∧ find rs.known = some a := by
    intro α isExplored find x h
    cases isExplored with
    | true => simp [Resources.search, Resources.table, hexplored] at h
    | false =>
      cases hfind : find rs.known with
      | none => simp [Resources.search, Resources.table, hexplored, hfind] at h
      | some a =>
        have hx : some (a, false) = x := by
          simpa [Resources.search, Resources.table, hfind, pure, Except.pure] using h
        exact ⟨rfl, a, hx.symm, rfl⟩
  obtain ⟨⟨uri, fragment⟩, htarget, hrest⟩ := Except.bind_eq_ok.mp h
  obtain ⟨o, ho, -⟩ := Except.bind_eq_ok.mp hrest
  obtain ⟨hs, r, rfl, hr⟩ := hsearch ho
  have hfound : rs'.search s.isExplored (·.resource? uri) = .ok (some (r, false)) := by
    simp [Resources.search, Resources.table, hs, hknown uri r hr, pure, Except.pure]
  simp only [lookup, htarget, ho, hfound, Except.ok_bind] at h ⊢
  split at h
  · exact h
  · exact h
  · obtain ⟨⟨a, _⟩, ha, -⟩ := Except.bind_eq_ok.mp h
    obtain ⟨o, ho, -⟩ := Except.bind_eq_ok.mp ha
    obtain ⟨-, b, -, hb⟩ := hsearch ho
    simp [Library.anchor?, hanchors] at hb

end Schema

end Reshape
